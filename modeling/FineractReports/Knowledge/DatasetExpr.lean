import FineractReports.Knowledge.DatasetRules
import FineractReports.Library.Tokens

/-!
# Declared expressions

The characters of an expression that the grammar accepts: it cannot end a statement, open
a bracket or name a placeholder.
-/

namespace FineractReports.Dataset

/-- The characters of a declared expression. -/
def exprChar (c : Char) : Bool := identifierChar c || Text.isWhitespace c || c ∈ ['.', ',']

theorem identifierPart_chars {part : String} (h : isIdentifierPart part = true) :
    ∀ c ∈ part.toList, identifierChar c = true := by
  unfold isIdentifierPart at h
  cases hchars : part.toList with
  | nil =>
    intro c hc
    cases hc
  | cons first rest =>
    rw [hchars] at h
    simp only [Bool.and_eq_true, List.all_eq_true] at h
    obtain ⟨hfirst, hrest⟩ := h
    intro c hc
    obtain rfl | hin := List.mem_cons.mp hc
    · simp only [identifierStart, Bool.or_eq_true] at hfirst
      simp only [identifierChar, Char.isAlphanum, Bool.or_eq_true]
      exact hfirst.imp Or.inl id
    · exact hrest c hin

theorem validateIdentifier_chars {identifier : String}
    (h : validateIdentifier identifier = .ok ()) :
    ∀ c ∈ identifier.toList, identifierChar c = true ∨ c = '.' := by
  simp only [validateIdentifier, bind_eq_ok_iff, exists_unit_iff, failIf_eq_ok, forEach_eq_ok] at h
  intro c hc
  by_cases hdot : c = '.'
  · exact Or.inr hdot
  · obtain ⟨part, hpart, hin⟩ := Text.mem_split (fun c => c = '.') hc (by simpa using hdot)
    exact Or.inl (identifierPart_chars (by simpa using h.2 part hpart) c hin)

theorem isAlpha_of_toUpper {c : Char} (h : c.toUpper.isUpper = true) : c.isAlpha = true := by
  cases hlower : c.isLower with
  | true => simp [Text.isAlpha_eq, hlower]
  | false =>
    rw [Text.toUpper_eq_self hlower] at h
    simp [Text.isAlpha_eq, h]

/-- The words a term may have after its identifier, in upper case. -/
def TERM_WORDS : List String := ["ASC", "DESC", "NULLS", "FIRST", "LAST"]

theorem termWord_chars {word : String} (h : Text.asciiUpper word ∈ TERM_WORDS) :
    ∀ c ∈ word.toList, identifierChar c = true := by
  intro c hc
  have hupper : c.toUpper ∈ (Text.asciiUpper word).toList := by
    rw [Text.asciiUpper, String.toList_ofList]
    exact List.mem_map_of_mem hc
  have hletters : ∀ text ∈ TERM_WORDS, text.toList.all Char.isUpper = true := by
    decide +kernel
  have halpha := isAlpha_of_toUpper (List.all_eq_true.mp (hletters _ h) _ hupper)
  simp [identifierChar, Char.isAlphanum, halpha]

theorem afterDirection_words {words : List String}
    (h : ∀ word ∈ afterDirection words, Text.asciiUpper word ∈ TERM_WORDS) :
    ∀ word ∈ words, Text.asciiUpper word ∈ TERM_WORDS := by
  cases words with
  | nil =>
    intro word hword
    cases hword
  | cons first rest =>
    rw [afterDirection] at h
    split_ifs at h with hdirection
    · intro word hword
      obtain rfl | hrest := List.mem_cons.mp hword
      · simp only [isDirection, decide_eq_true_eq] at hdirection
        obtain hasc | hdesc := hdirection
        · rw [hasc]
          decide
        · rw [hdesc]
          decide
      · exact h word hrest
    · exact h

theorem validateTerm_chars {term : String} (h : validateTerm term = .ok ()) :
    ∀ c ∈ term.toList, exprChar c = true := by
  intro c hc
  by_cases hspace : Text.isWhitespace c = true
  · simp [exprChar, hspace]
  · obtain ⟨token, htoken, hin⟩ := Text.mem_tokens Text.isWhitespace hc
      (Bool.eq_false_iff.mpr hspace)
    unfold validateTerm at h
    split at h
    · cases h
    · rename_i identifier words htokens
      rw [htokens] at htoken
      simp only [bind_eq_ok_iff, exists_unit_iff] at h
      obtain ⟨hidentifier, hwords⟩ := h
      obtain rfl | hword := List.mem_cons.mp htoken
      · rcases validateIdentifier_chars hidentifier c hin with hchar | rfl
        · simp [exprChar, hchar]
        · decide
      · have hall : ∀ word ∈ afterDirection words, Text.asciiUpper word ∈ TERM_WORDS := by
          intro word hmem
          split at hwords
          · rename_i hnone
            rw [hnone] at hmem
            cases hmem
          · rename_i nulls place hpair
            rw [hpair] at hmem
            rw [failIf_eq_ok, not_not] at hwords
            obtain ⟨hnulls, hplace⟩ := hwords
            simp only [List.mem_cons, List.not_mem_nil, or_false] at hmem
            rcases hmem with rfl | rfl
            · rw [hnulls]
              decide
            · rcases hplace with hfirst | hlast
              · rw [hfirst]
                decide
              · rw [hlast]
                decide
          · cases hwords
        simp [exprChar, termWord_chars (afterDirection_words hall token hword) c hin]

theorem validateSqlExpr_chars {expr : String} (h : validateSqlExpr expr = .ok ()) :
    ∀ c ∈ expr.toList, exprChar c = true := by
  simp only [validateSqlExpr, bind_eq_ok_iff, exists_unit_iff, forEach_eq_ok] at h
  intro c hc
  by_cases hcomma : c = ','
  · subst hcomma
    decide
  · obtain ⟨term, hterm, hin⟩ := Text.mem_split (fun c => c = ',') hc (by simpa using hcomma)
    exact validateTerm_chars (h.2.2 term hterm) c hin

/-- A character no expression may have. -/
theorem validateSqlExpr_not_mem {expr : String} {c : Char} (h : validateSqlExpr expr = .ok ())
    (hc : exprChar c = false) : c ∉ expr.toList := by
  intro hmem
  rw [validateSqlExpr_chars h c hmem] at hc
  cases hc

end FineractReports.Dataset
