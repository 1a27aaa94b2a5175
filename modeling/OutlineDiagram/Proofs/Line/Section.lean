/-
This file proves what becomes of metadata that is written as a section and read
again. Ids that were read once are bare: they are not empty and hold neither
blanks nor punctuation. Bare ids, the tokens for visibility and highlight and the
signs of links are all told apart by the reader, with one exception. Brackets are
no punctuation, so that a bare id can spell the token that hides a bullet or the
one that highlights it, and then it is read as that token.
-/

import OutlineDiagram.Line.Section
import OutlineDiagram.Proofs.Text.Words

namespace OutlineDiagram

open Text

/-! ### Bare ids -/

/-- An id as reading a section leaves it. -/
structure IsBareId (id : String) : Prop where
  /-- The id is not empty. -/
  nonempty : id ≠ ""
  /-- No character of the id is blank. -/
  solid : ∀ character ∈ id.toList, isBlank character = false
  /-- No character of the id is punctuation. -/
  bare : ∀ character ∈ id.toList, character ∉ idPunctuation

namespace IsBareId

variable {id : String}

theorem toList_ne_nil (bareId : IsBareId id) : id.toList ≠ [] :=
  fun empty => bareId.nonempty (String.toList_eq_nil_iff.mp empty)

/-- A bare id keeps all its characters. -/
theorem bareId_toList (known : IsBareId id) : bareId id.toList = id.toList := by
  refine List.filter_eq_self.mpr fun character inside => ?_
  simpa using known.bare character inside

/-- A bare id after a sign of punctuation is that id. -/
theorem bareId_cons (known : IsBareId id) {sign : Char} (isSign : sign ∈ idPunctuation) :
    bareId (sign :: id.toList) = id.toList := by
  rw [bareId, List.filter_cons, if_neg (by simpa using isSign)]
  exact known.bareId_toList

/-- A bare id does not start with the sign of a link. -/
theorem head_ne (known : IsBareId id) {sign : Char} (isSign : sign ∈ idPunctuation)
    (rest : List Char) : id.toList ≠ sign :: rest := by
  intro same
  exact known.bare sign (by rw [same]; exact List.mem_cons_self) isSign

end IsBareId

/-- The bare form of a token without blanks is empty or a bare id. -/
theorem isBareId_of_bareId {token : List Char}
    (solid : ∀ character ∈ token, isBlank character = false)
    (nonempty : String.ofList (bareId token) ≠ "") : IsBareId (String.ofList (bareId token)) where
  nonempty := nonempty
  solid := by
    intro character inside
    rw [String.toList_ofList] at inside
    exact solid character (List.mem_filter.mp inside).1
  bare := by
    intro character inside
    rw [String.toList_ofList] at inside
    simpa using (List.mem_filter.mp inside).2

namespace Metadata

/-- All ids of the metadata are bare. -/
structure IsBare (metadata : Metadata) : Prop where
  /-- The written id is bare. -/
  explicitId : ∀ id, metadata.explicitId = some id → IsBareId id
  /-- The ids of the links out are bare. -/
  idsOut : ∀ id ∈ metadata.idsOut, IsBareId id
  /-- The ids of the links in are bare. -/
  idsIn : ∀ id ∈ metadata.idsIn, IsBareId id

/-- Reading an id token keeps ids bare. -/
theorem IsBare.readId {metadata : Metadata} (known : metadata.IsBare) {token : List Char}
    (solid : ∀ character ∈ token, isBlank character = false) : (metadata.readId token).IsBare := by
  by_cases isEmpty : (String.ofList (bareId token) == "") = true
  · simpa only [Metadata.readId, if_pos isEmpty] using known
  · have bareToken : IsBareId (String.ofList (bareId token)) :=
      isBareId_of_bareId solid (by simpa using isEmpty)
    have appended : ∀ {ids : List String}, (∀ id ∈ ids, IsBareId id) →
        ∀ id ∈ ids ++ [String.ofList (bareId token)], IsBareId id := by
      intro ids bareIds id member
      rcases List.mem_append.mp member with earlier | last
      · exact bareIds id earlier
      · rw [List.mem_singleton.mp last]
        exact bareToken
    simp only [Metadata.readId, if_neg isEmpty]
    split
    · exact ⟨known.explicitId, appended known.idsOut, known.idsIn⟩
    · exact ⟨known.explicitId, known.idsOut, appended known.idsIn⟩
    · refine ⟨fun id same => ?_, known.idsOut, known.idsIn⟩
      rw [← Option.some.inj same]
      exact bareToken

/-- Reading a token keeps ids bare. -/
theorem IsBare.readToken {metadata : Metadata} (known : metadata.IsBare) {token : List Char}
    (solid : ∀ character ∈ token, isBlank character = false) :
    (metadata.readToken token).IsBare := by
  unfold Metadata.readToken
  split
  · exact ⟨known.explicitId, known.idsOut, known.idsIn⟩
  · split
    · exact ⟨known.explicitId, known.idsOut, known.idsIn⟩
    · exact known.readId solid

/-- Whatever is read from a section is bare. -/
theorem isBare_read (text : List Char) : (Metadata.read text).IsBare := by
  have fromTokens : ∀ (tokens : List (List Char)) (metadata : Metadata), metadata.IsBare →
      (∀ token ∈ tokens, ∀ character ∈ token, isBlank character = false) →
      (tokens.foldl Metadata.readToken metadata).IsBare := by
    intro tokens
    induction tokens with
    | nil => exact fun metadata known _ => known
    | cons token rest inductionHypothesis =>
      intro metadata known solid
      exact inductionHypothesis _ (known.readToken (solid token List.mem_cons_self))
        fun other member => solid other (List.mem_cons_of_mem _ member)
  refine fromTokens _ {} ⟨by simp, by simp, by simp⟩ fun token member character inside => ?_
  exact cuts_of_mem_wordsBy member inside

/-! ### Single tokens -/

theorem ofToken?_eq_none {token : String} (notFold : token ≠ "[+]") (notFoldHidden : token ≠ "[++]")
    (notHide : token ≠ "[x]") : Visibility.ofToken? token = none := by
  simp [Visibility.ofToken?, Visibility.token, notFold.symm, notFoldHidden.symm, notHide.symm]

/-- The token of a visibility that is written sets it. -/
theorem readToken_visibility (metadata : Metadata) {visibility : Visibility}
    (written : visibility ≠ .normal) :
    metadata.readToken visibility.token.toList = { metadata with visibility := visibility } := by
  have found : Visibility.ofToken? visibility.token = some visibility := by
    cases visibility with
    | normal => exact absurd rfl written
    | fold => decide
    | foldHidden => decide
    | hide => decide
  rw [readToken, String.ofList_toList, found]

/-- The token of a highlight sets it. -/
theorem readToken_highlight (metadata : Metadata) :
    metadata.readToken highlightToken.toList = { metadata with isHighlighted := true } := by
  have notVisibility : Visibility.ofToken? highlightToken = none := by decide
  rw [readToken, String.ofList_toList, notVisibility]
  exact if_pos (by simp)

/-- A token that is neither a visibility nor a highlight is an id. -/
theorem readToken_id (metadata : Metadata) {token : List Char}
    (notVisibility : Visibility.ofToken? (String.ofList token) = none)
    (notHighlight : String.ofList token ≠ highlightToken) :
    metadata.readToken token = metadata.readId token := by
  rw [readToken, notVisibility]
  exact if_neg (by simpa using notHighlight)

/-- A token that starts with the sign of a link is an id. -/
theorem readToken_cons {sign : Char} (notBracket : sign ≠ '[') (metadata : Metadata)
    (rest : List Char) : metadata.readToken (sign :: rest) = metadata.readId (sign :: rest) := by
  have different : ∀ marker : String, marker.toList.head? = some '[' →
      String.ofList (sign :: rest) ≠ marker := by
    intro marker starts same
    rw [← same, String.toList_ofList, List.head?_cons, Option.some.injEq] at starts
    exact notBracket starts
  exact readToken_id metadata
    (ofToken?_eq_none (different _ (by decide)) (different _ (by decide))
      (different _ (by decide)))
    (different _ (by decide))

/-- A link out is read as it is written. -/
theorem readToken_out (metadata : Metadata) {id : String} (known : IsBareId id) :
    metadata.readToken ('>' :: id.toList) =
      { metadata with idsOut := metadata.idsOut ++ [id] } := by
  rw [readToken_cons (by decide), readId, known.bareId_cons (by decide), String.ofList_toList,
    if_neg (by simpa using known.nonempty)]

/-- A link in is read as it is written. -/
theorem readToken_in (metadata : Metadata) {id : String} (known : IsBareId id) :
    metadata.readToken ('<' :: id.toList) = { metadata with idsIn := metadata.idsIn ++ [id] } := by
  rw [readToken_cons (by decide), readId, known.bareId_cons (by decide), String.ofList_toList,
    if_neg (by simpa using known.nonempty)]

/-- A bare id is read as the own id unless it spells a token. -/
theorem readToken_own (metadata : Metadata) {id : String} (known : IsBareId id)
    (notHide : id ≠ Visibility.hide.token) (notHighlight : id ≠ highlightToken) :
    metadata.readToken id.toList = { metadata with explicitId := some id } := by
  have notPlus : ∀ rest, id.toList ≠ '[' :: '+' :: rest := by
    intro rest same
    exact known.bare '+' (by rw [same]; simp) (by decide)
  have notFold : id ≠ "[+]" := fun same => notPlus [']'] (by rw [same]; decide)
  have notFoldHidden : id ≠ "[++]" := fun same => notPlus ['+', ']'] (by rw [same]; decide)
  rw [readToken_id metadata
      (by rw [String.ofList_toList]; exact ofToken?_eq_none notFold notFoldHidden notHide)
      (by rw [String.ofList_toList]; exact notHighlight),
    readId]
  · rw [known.bareId_toList, String.ofList_toList, if_neg (by simpa using known.nonempty)]
  · exact known.head_ne (by decide)
  · exact known.head_ne (by decide)

/-! ### Written sections -/

/-- The tokens of the metadata as lists of characters. -/
def writtenTokens (metadata : Metadata) : List (List Char) := metadata.tokens.map String.toList

/-- The text of a section after its separator. -/
def writtenText (metadata : Metadata) : List Char := ' ' :: [' '].intercalate metadata.writtenTokens

/-- A section that is written consists of a blank, the separator and its text. -/
theorem toList_render (metadata : Metadata) :
    metadata.render.toList =
      if metadata.tokens.isEmpty then [] else '/' :: '/' :: metadata.writtenText := by
  rw [render]
  split
  · rfl
  · rw [String.toList_append, String.toList_intercalate]
    rfl

theorem render_eq_empty_iff {metadata : Metadata} :
    metadata.render = "" ↔ metadata.tokens = [] := by
  rw [← String.toList_eq_nil_iff, toList_render]
  split
  · next nothing => exact iff_of_true rfl (by simpa using nothing)
  · next something =>
    exact iff_of_false (List.cons_ne_nil _ _) (by simpa using something)

theorem solid_of_all {token : List Char}
    (solid : (token.all fun character => !isBlank character && character != '"') = true) :
    ∀ character ∈ token, isBlank character = false ∧ character ≠ '"' := by
  intro character member
  have passes := List.all_eq_true.mp solid character member
  simpa using passes

/-- No token of bare metadata is empty or holds a character from outside the ids and marks. -/
theorem solid_of_mem_writtenTokens {metadata : Metadata} (known : metadata.IsBare)
    {token : List Char} (member : token ∈ metadata.writtenTokens) :
    token ≠ [] ∧ ∀ character ∈ token, isBlank character = false ∧ character ≠ '"' := by
  have ofId : ∀ id, IsBareId id → id.toList ≠ [] ∧
      ∀ character ∈ id.toList, isBlank character = false ∧ character ≠ '"' := by
    intro id bareId
    refine ⟨bareId.toList_ne_nil, fun character inside => ⟨bareId.solid character inside, ?_⟩⟩
    rintro rfl
    exact bareId.bare _ inside (by decide)
  have ofLink : ∀ sign : Char, isBlank sign = false → sign ≠ '"' → ∀ id, IsBareId id →
      sign :: id.toList ≠ [] ∧
        ∀ character ∈ sign :: id.toList, isBlank character = false ∧ character ≠ '"' := by
    intro sign solid unquoted id bareId
    refine ⟨by simp, fun character inside => ?_⟩
    rcases List.mem_cons.mp inside with same | later
    · rw [same]
      exact ⟨solid, unquoted⟩
    · exact (ofId id bareId).2 character later
  simp only [writtenTokens, tokens, List.mem_map, List.mem_append, or_assoc] at member
  obtain ⟨written, place, rfl⟩ := member
  rcases place with place | place | place | ⟨id, member, rfl⟩ | ⟨id, member, rfl⟩
  · split at place
    · simp at place
    · next notNormal =>
      rw [List.mem_singleton.mp place]
      cases same : metadata.visibility with
      | normal => exact absurd same notNormal
      | fold => exact ⟨by decide, solid_of_all (by decide)⟩
      | foldHidden => exact ⟨by decide, solid_of_all (by decide)⟩
      | hide => exact ⟨by decide, solid_of_all (by decide)⟩
  · split at place
    · rw [List.mem_singleton.mp place]
      exact ⟨by decide, solid_of_all (by decide)⟩
    · simp at place
  · rw [Option.mem_toList, ownId?, Option.filter_eq_some_iff] at place
    exact ofId written (known.explicitId written place.1)
  · rw [String.toList_append]
    exact ofLink '>' (by decide) (by decide) id (known.idsOut id member)
  · rw [String.toList_append]
    exact ofLink '<' (by decide) (by decide) id (known.idsIn id member)

/-- The tokens of a written section are found again. -/
theorem words_writtenText {metadata : Metadata} (known : metadata.IsBare) :
    words metadata.writtenText = metadata.writtenTokens := by
  rw [words, writtenText, wordsBy, if_pos (by decide)]
  refine wordsBy_intercalate (by decide)
    (fun token member => (solid_of_mem_writtenTokens known member).1) ?_
  intro token member character inside
  exact ((solid_of_mem_writtenTokens known member).2 character inside).1

theorem foldl_readToken_out (metadata : Metadata) {ids : List String}
    (known : ∀ id ∈ ids, IsBareId id) :
    (ids.map fun id => '>' :: id.toList).foldl readToken metadata =
      { metadata with idsOut := metadata.idsOut ++ ids } := by
  induction ids generalizing metadata with
  | nil => simp
  | cons id rest inductionHypothesis =>
    rw [List.map_cons, List.foldl_cons, readToken_out _ (known id List.mem_cons_self),
      inductionHypothesis _ fun other member => known other (List.mem_cons_of_mem _ member)]
    simp

theorem foldl_readToken_in (metadata : Metadata) {ids : List String}
    (known : ∀ id ∈ ids, IsBareId id) :
    (ids.map fun id => '<' :: id.toList).foldl readToken metadata =
      { metadata with idsIn := metadata.idsIn ++ ids } := by
  induction ids generalizing metadata with
  | nil => simp
  | cons id rest inductionHypothesis =>
    rw [List.map_cons, List.foldl_cons, readToken_in _ (known id List.mem_cons_self),
      inductionHypothesis _ fun other member => known other (List.mem_cons_of_mem _ member)]
    simp

/-- The marks and links of bare metadata are read as they are written, whatever is made of the
own id between them. -/
theorem read_writtenText {metadata : Metadata} (known : metadata.IsBare) :
    Metadata.read metadata.writtenText =
      let marked := (metadata.ownId?.toList.map String.toList).foldl readToken
        { visibility := metadata.visibility, isHighlighted := metadata.isHighlighted }
      { marked with
        idsOut := marked.idsOut ++ metadata.idsOut
        idsIn := marked.idsIn ++ metadata.idsIn } := by
  have visibilityRead :
      ((if metadata.visibility = .normal then [] else [metadata.visibility.token]).map
        String.toList).foldl readToken {} = { visibility := metadata.visibility } := by
    by_cases isNormal : metadata.visibility = .normal
    · rw [if_pos isNormal, isNormal]
      rfl
    · rw [if_neg isNormal]
      exact readToken_visibility {} isNormal
  have highlightRead : ∀ visibility : Visibility,
      ((if metadata.isHighlighted then [highlightToken] else []).map
        String.toList).foldl readToken { visibility := visibility } =
        { visibility := visibility, isHighlighted := metadata.isHighlighted } := by
    intro visibility
    cases metadata.isHighlighted with
    | false => rfl
    | true => exact readToken_highlight { visibility := visibility }
  have outTokens : (metadata.idsOut.map (">" ++ ·)).map String.toList =
      metadata.idsOut.map fun id => '>' :: id.toList := by simp
  have inTokens : (metadata.idsIn.map ("<" ++ ·)).map String.toList =
      metadata.idsIn.map fun id => '<' :: id.toList := by simp
  rw [Metadata.read, words_writtenText known, writtenTokens, tokens]
  simp only [List.map_append, List.foldl_append]
  rw [visibilityRead, highlightRead, outTokens, inTokens, foldl_readToken_out _ known.idsOut,
    foldl_readToken_in _ known.idsIn]

/-- Bare metadata is read as it was written exactly when its own id spells neither the token
that hides nor the one that highlights. -/
theorem read_writtenText_eq_iff {metadata : Metadata} (known : metadata.IsBare) :
    Metadata.read metadata.writtenText = metadata ↔
      metadata.explicitId ≠ some Visibility.hide.token ∧
        metadata.explicitId ≠ some highlightToken := by
  rw [read_writtenText known]
  obtain ⟨visibility, isHighlighted, explicitId, idsIn, idsOut⟩ := metadata
  cases explicitId with
  | none => simp [ownId?]
  | some id =>
    have bareId : IsBareId id := known.explicitId id rfl
    have own : ({ visibility, isHighlighted, explicitId := some id, idsIn, idsOut } :
        Metadata).ownId? = some id := by simp [ownId?, bareId.nonempty]
    simp only [own, Option.toList_some, List.map_cons, List.map_nil, List.foldl_cons,
      List.foldl_nil]
    by_cases isHide : id = Visibility.hide.token
    · rw [isHide, readToken_visibility _ (by decide)]
      simp
    · by_cases isHighlight : id = highlightToken
      · rw [isHighlight, readToken_highlight]
        simp
      · rw [readToken_own _ bareId isHide isHighlight]
        simp [isHide, isHighlight]

theorem IsBare.explicitId_ne {metadata : Metadata} (known : metadata.IsBare) :
    metadata.explicitId ≠ some "" :=
  fun same => (known.explicitId "" same).nonempty rfl

/-- Metadata without tokens says nothing, unless it holds an empty id. -/
theorem eq_empty_of_tokens {metadata : Metadata} (named : metadata.explicitId ≠ some "")
    (none : metadata.tokens = []) : metadata = {} := by
  simp only [tokens, List.append_eq_nil_iff, List.map_eq_nil_iff, Option.toList_eq_nil_iff] at none
  obtain ⟨⟨⟨⟨visibility, highlight⟩, own⟩, idsOut⟩, idsIn⟩ := none
  have noId : metadata.explicitId = Option.none := by
    cases written : metadata.explicitId with
    | none => rfl
    | some id =>
      have nonempty : id ≠ "" := fun same => named (by rw [written, same])
      simp [ownId?, written, nonempty] at own
  obtain ⟨oldVisibility, oldHighlight, oldId, oldIn, oldOut⟩ := metadata
  simp_all

end Metadata

end OutlineDiagram
