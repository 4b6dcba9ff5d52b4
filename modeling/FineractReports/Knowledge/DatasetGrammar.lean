import FineractReports.Knowledge.DatasetExpr

/-!
# The grammar of declared expressions

What an ordering list is, stated without the validator: terms separated by commas, each a
name with an optional direction and an optional place for nulls. The validator accepts the
ordering lists and nothing else.
-/

namespace FineractReports.Dataset

open FineractReports.Text

/-- `[A-Za-z_][A-Za-z0-9_]*`. -/
def IsIdentifier (text : List Char) : Prop :=
  ∃ first rest, text = first :: rest ∧ identifierStart first = true ∧
    ∀ c ∈ rest, identifierChar c = true

inductive IsName : List Char → Prop
  | bare {name : List Char} (h : IsIdentifier name) : IsName name
  | qualified {table name : List Char} (htable : IsIdentifier table) (hname : IsIdentifier name) :
      IsName (table ++ '.' :: name)

/-- A word that is a keyword in some mixture of ASCII case. -/
def IsKeyword (keyword word : String) : Prop := asciiUpper word = keyword

inductive IsDirection : List String → Prop
  | none : IsDirection []
  | ascending {word : String} (h : IsKeyword "ASC" word) : IsDirection [word]
  | descending {word : String} (h : IsKeyword "DESC" word) : IsDirection [word]

inductive IsNullsPlace : List String → Prop
  | none : IsNullsPlace []
  | first {nulls place : String} (hnulls : IsKeyword "NULLS" nulls)
      (hplace : IsKeyword "FIRST" place) : IsNullsPlace [nulls, place]
  | last {nulls place : String} (hnulls : IsKeyword "NULLS" nulls)
      (hplace : IsKeyword "LAST" place) : IsNullsPlace [nulls, place]

/-- The words of a term, between white space. -/
def IsTerm (term : String) : Prop :=
  ∃ name direction nullsPlace, tokens isWhitespace term = name :: (direction ++ nullsPlace) ∧
    IsName name.toList ∧ IsDirection direction ∧ IsNullsPlace nullsPlace

/-- A nonempty list of terms, separated by commas. -/
def IsOrderingList (expr : String) : Prop :=
  ∃ terms : List String, terms ≠ [] ∧ expr.toList = [','].intercalate (terms.map String.toList) ∧
    ∀ term ∈ terms, IsTerm term

section Names

variable {name : List Char}

theorem isIdentifierPart_iff {part : String} :
    isIdentifierPart part = true ↔ IsIdentifier part.toList := by
  unfold isIdentifierPart IsIdentifier
  cases part.toList with
  | nil => simp
  | cons first rest => simp

theorem IsIdentifier.chars (h : IsIdentifier name) : ∀ c ∈ name, identifierChar c = true := by
  have hpart : isIdentifierPart (String.ofList name) = true := by
    rw [isIdentifierPart_iff, String.toList_ofList]
    exact h
  simpa using identifierPart_chars hpart

theorem IsIdentifier.not_dot (h : IsIdentifier name) :
    ∀ c ∈ name, (decide (c = '.')) = false := by
  intro c hc
  have hchar := h.chars c hc
  apply decide_eq_false
  rintro rfl
  exact absurd hchar (by decide)

theorem IsName.chars (h : IsName name) : ∀ c ∈ name, identifierChar c = true ∨ c = '.' := by
  intro c hc
  cases h with
  | bare h => exact Or.inl (h.chars c hc)
  | qualified htable hname =>
    rcases List.mem_append.mp hc with hin | hin
    · exact Or.inl (htable.chars c hin)
    · rcases List.mem_cons.mp hin with rfl | hin
      · exact Or.inr rfl
      · exact Or.inl (hname.chars c hin)

theorem splitOnP_eq_splitOn (mark : Char) (text : List Char) :
    text.splitOnP (fun c => decide (c = mark)) = text.splitOn mark := rfl

/-- A name is split at its dot, if it has one. -/
theorem isName_iff : IsName name ↔ (name.splitOnP fun c => decide (c = '.')).length ≤ 2 ∧
    ∀ part ∈ name.splitOnP fun c => decide (c = '.'), IsIdentifier part := by
  constructor
  · intro h
    cases h with
    | bare h =>
      rw [List.splitOnP_eq_singleton h.not_dot]
      simpa using h
    | qualified htable hname =>
      rw [List.splitOnP_append_cons_of_forall_mem htable.not_dot _ (by decide),
        List.splitOnP_eq_singleton hname.not_dot]
      simpa using ⟨htable, hname⟩
  · rintro ⟨hlength, hparts⟩
    have hjoin : ['.'].intercalate (name.splitOnP fun c => decide (c = '.')) = name := by
      rw [splitOnP_eq_splitOn, List.intercalate_splitOn]
    match hsplit : name.splitOnP fun c => decide (c = '.') with
    | [] => exact absurd hsplit (List.splitOnP_ne_nil _ _)
    | [part] =>
      rw [hsplit] at hjoin hparts
      rw [← hjoin]
      apply IsName.bare
      simpa using hparts
    | [table, part] =>
      rw [hsplit] at hjoin hparts
      have htwo : name = table ++ '.' :: part := by
        rw [← hjoin]
        simp
      rw [htwo]
      apply IsName.qualified
      · exact hparts table List.mem_cons_self
      · exact hparts part (List.mem_cons_of_mem _ List.mem_cons_self)
    | _ :: _ :: _ :: _ =>
      rw [hsplit] at hlength
      simp only [List.length_cons] at hlength
      omega

theorem validateIdentifier_iff {identifier : String} :
    validateIdentifier identifier = .ok () ↔ IsName identifier.toList := by
  rw [isName_iff]
  simp [validateIdentifier, Text.split, isIdentifierPart_iff]

end Names

section Terms

variable {term : String} {words : List String}

theorem isDirection_iff {word : String} :
    isDirection word = true ↔ IsKeyword "ASC" word ∨ IsKeyword "DESC" word := by
  simp [isDirection, IsKeyword]

/-- The direction comes off the words of a term, if they begin with one. -/
theorem afterDirection_spec : ∃ direction, IsDirection direction ∧
    words = direction ++ afterDirection words := by
  cases words with
  | nil => exact ⟨[], .none, rfl⟩
  | cons word rest =>
    rw [afterDirection]
    split_ifs with h
    · refine ⟨[word], ?_, rfl⟩
      rcases isDirection_iff.mp h with hasc | hdesc
      · exact .ascending hasc
      · exact .descending hdesc
    · exact ⟨[], .none, rfl⟩

theorem IsNullsPlace.afterDirection (h : IsNullsPlace words) : afterDirection words = words := by
  have hnulls : ∀ word, IsKeyword "NULLS" word → isDirection word = false := by
    intro word hword
    simp only [isDirection, show asciiUpper word = "NULLS" from hword]
    decide
  cases h with
  | none => rfl
  | first hword _ => simp [Dataset.afterDirection, hnulls _ hword]
  | last hword _ => simp [Dataset.afterDirection, hnulls _ hword]

theorem afterDirection_append {direction : List String} (hdirection : IsDirection direction)
    (hwords : IsNullsPlace words) : afterDirection (direction ++ words) = words := by
  cases hdirection with
  | none => exact hwords.afterDirection
  | ascending h => simp [afterDirection, isDirection_iff.mpr (.inl h)]
  | descending h => simp [afterDirection, isDirection_iff.mpr (.inr h)]

theorem isNullsPlace_iff : IsNullsPlace words ↔
    words = [] ∨ ∃ nulls place, words = [nulls, place] ∧ asciiUpper nulls = "NULLS" ∧
      (asciiUpper place = "FIRST" ∨ asciiUpper place = "LAST") := by
  constructor
  · intro h
    cases h with
    | none => exact Or.inl rfl
    | first hnulls hplace => exact Or.inr ⟨_, _, rfl, hnulls, Or.inl hplace⟩
    | last hnulls hplace => exact Or.inr ⟨_, _, rfl, hnulls, Or.inr hplace⟩
  · rintro (rfl | ⟨nulls, place, rfl, hnulls, hfirst | hlast⟩)
    · exact .none
    · exact .first hnulls hfirst
    · exact .last hnulls hlast

theorem isTerm_iff : IsTerm term ↔ ∃ name rest, tokens isWhitespace term = name :: rest ∧
    IsName name.toList ∧ IsNullsPlace (afterDirection rest) := by
  constructor
  · rintro ⟨name, direction, nullsPlace, htokens, hname, hdirection, hplace⟩
    refine ⟨name, direction ++ nullsPlace, htokens, hname, ?_⟩
    rwa [afterDirection_append hdirection hplace]
  · rintro ⟨name, rest, htokens, hname, hplace⟩
    obtain ⟨direction, hdirection, hrest⟩ := @afterDirection_spec rest
    refine ⟨name, direction, afterDirection rest, ?_, hname, hdirection, hplace⟩
    rw [htokens, ← hrest]

theorem validateTerm_iff : validateTerm term = .ok () ↔ IsTerm term := by
  rw [isTerm_iff, validateTerm]
  cases htokens : tokens isWhitespace term with
  | nil => simp
  | cons name rest =>
    simp only [bind_eq_ok_iff, exists_unit_iff, validateIdentifier_iff, List.cons.injEq]
    cases hrest : afterDirection rest with
    | nil => simp [hrest, isNullsPlace_iff]
    | cons nulls rest =>
      cases rest with
      | nil => simp [hrest, isNullsPlace_iff]
      | cons place rest =>
        cases rest with
        | nil => simp [hrest, isNullsPlace_iff, or_iff_not_imp_left]
        | cons other rest => simp [hrest, isNullsPlace_iff]

end Terms

section Lists

variable {expr : String}

theorem IsDirection.words {words : List String} (h : IsDirection words) :
    ∀ word ∈ words, asciiUpper word ∈ TERM_WORDS := by
  cases h with
  | none => simp
  | ascending h => simp [show _ = "ASC" from h, TERM_WORDS]
  | descending h => simp [show _ = "DESC" from h, TERM_WORDS]

theorem IsNullsPlace.words {words : List String} (h : IsNullsPlace words) :
    ∀ word ∈ words, asciiUpper word ∈ TERM_WORDS := by
  cases h with
  | none => simp
  | first hnulls hplace =>
    simp [show _ = "NULLS" from hnulls, show _ = "FIRST" from hplace, TERM_WORDS]
  | last hnulls hplace =>
    simp [show _ = "NULLS" from hnulls, show _ = "LAST" from hplace, TERM_WORDS]

theorem IsTerm.no_comma {term : String} (h : IsTerm term) : ',' ∉ term.toList := by
  intro hcomma
  obtain ⟨name, direction, nullsPlace, htokens, hname, hdirection, hplace⟩ := h
  obtain ⟨token, htoken, hin⟩ := mem_tokens isWhitespace hcomma (by decide)
  rw [htokens] at htoken
  rcases List.mem_cons.mp htoken with rfl | hword
  · exact absurd (hname.chars ',' hin) (by decide)
  · have hkeyword : asciiUpper token ∈ TERM_WORDS := by
      rcases List.mem_append.mp hword with hmem | hmem
      · exact hdirection.words token hmem
      · exact hplace.words token hmem
    exact absurd (termWord_chars hkeyword ',' hin) (by decide)

/-- A text is an ordering list when the pieces between its commas are terms. -/
theorem isOrderingList_iff : IsOrderingList expr ↔
    ∀ term ∈ split (fun c => c = ',') expr, IsTerm term := by
  constructor
  · rintro ⟨terms, hne, hexpr, hterms⟩
    have hsplit : split (fun c => c = ',') expr = terms := by
      rw [split, hexpr, splitOnP_eq_splitOn, List.splitOn_intercalate]
      · simp [Function.comp_def]
      · intro chars hchars
        obtain ⟨term, hterm, rfl⟩ := List.mem_map.mp hchars
        exact (hterms term hterm).no_comma
      · simpa using hne
    rw [hsplit]
    exact hterms
  · intro h
    refine ⟨split (fun c => c = ',') expr, ?_, ?_, h⟩
    · simp [split, List.splitOnP_ne_nil]
    · rw [split, List.map_map]
      have hback : String.toList ∘ String.ofList = id := by
        funext chars
        exact String.toList_ofList
      rw [hback, List.map_id, splitOnP_eq_splitOn, List.intercalate_splitOn]

/-- A character that no ordering list has stands in every forbidden token. -/
theorem forbidden_has_foreign : ∀ token ∈ FORBIDDEN_TOKENS,
    ∃ c ∈ token.toList, exprChar c = false := by
  have hforeign : ∀ token ∈ FORBIDDEN_TOKENS, token.toList.any (fun c => !exprChar c) = true := by
    decide
  intro token htoken
  simpa using hforeign token htoken

theorem IsTerm.chars {term : String} (h : IsTerm term) : ∀ c ∈ term.toList, exprChar c = true :=
  validateTerm_chars (validateTerm_iff.mpr h)

theorem IsOrderingList.chars (h : IsOrderingList expr) : ∀ c ∈ expr.toList, exprChar c = true := by
  intro c hc
  by_cases hcomma : c = ','
  · subst hcomma
    decide
  · obtain ⟨term, hterm, hin⟩ := mem_split (fun c => c = ',') hc (by simpa using hcomma)
    exact (isOrderingList_iff.mp h term hterm).chars c hin

theorem IsTerm.not_blank {term : String} (h : IsTerm term) : isBlank term = false := by
  obtain ⟨name, direction, nullsPlace, htokens, -⟩ := h
  apply Bool.eq_false_iff.mpr
  intro hblank
  have hempty : tokenChars isWhitespace term.toList = [] := by
    have hsep := tokenChars_separators_append [] (List.all_eq_true.mp hblank)
    rwa [List.append_nil] at hsep
  rw [tokens, hempty] at htokens
  cases htokens

theorem IsOrderingList.not_blank (h : IsOrderingList expr) : isBlank expr = false := by
  apply Bool.eq_false_iff.mpr
  intro hblank
  have hcomma : ∀ c ∈ expr.toList, decide (c = ',') = false := by
    intro c hc
    have hspace := List.all_eq_true.mp hblank c hc
    apply decide_eq_false
    rintro rfl
    exact absurd hspace (by decide)
  have hone : split (fun c => c = ',') expr = [expr] := by
    rw [split, List.splitOnP_eq_singleton hcomma, List.map_singleton, String.ofList_toList]
  have hterm := isOrderingList_iff.mp h expr (by simp [hone])
  rw [hterm.not_blank] at hblank
  cases hblank

/-- The validator accepts the ordering lists: nothing else passes, and what passes has only
the characters of names, dots, commas and white space. -/
theorem validateSqlExpr_iff (expr : String) :
    (validateSqlExpr expr = .ok () ↔ IsOrderingList expr) ∧
      (validateSqlExpr expr = .ok () → ∀ c ∈ expr.toList,
        c.isAlphanum = true ∨ c = '_' ∨ c = '.' ∨ c = ',' ∨ isWhitespace c = true) := by
  constructor
  · constructor
    · intro h
      simp only [validateSqlExpr, bind_eq_ok_iff, exists_unit_iff, forEach_eq_ok] at h
      apply isOrderingList_iff.mpr
      intro term hterm
      exact validateTerm_iff.mp (h.2.2 term hterm)
    · intro h
      simp only [validateSqlExpr, bind_eq_ok_iff, exists_unit_iff, forEach_eq_ok, failIf_eq_ok]
      refine ⟨by simp [h.not_blank], ?_, ?_⟩
      · intro token htoken hcontains
        obtain ⟨c, hc, hforeign⟩ := forbidden_has_foreign token htoken
        have hin := (containsChars_iff.mp hcontains).subset hc
        rw [h.chars c hin] at hforeign
        cases hforeign
      · intro term hterm
        exact validateTerm_iff.mpr (isOrderingList_iff.mp h term hterm)
  · intro h c hc
    have hchar := validateSqlExpr_chars h c hc
    simp only [exprChar, identifierChar, Bool.or_eq_true, decide_eq_true_eq, List.mem_cons,
      List.not_mem_nil, or_false] at hchar
    tauto

end Lists

end FineractReports.Dataset
