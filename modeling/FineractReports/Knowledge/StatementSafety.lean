import FineractReports.Knowledge.SqlSafety
import FineractReports.Library.Tokens

/-!
# Safe statements

What the scan of a query's file asks of any statement: no unsafe command, a single
statement, and a constraint on the authorized offices where they are declared. The checks
are stated on the trimmed text, as the scan makes them, and then on the text itself.
-/

namespace FineractReports.SqlSafety

/-! ### The checks on a statement -/

/-- The text the scan reads: trimmed and in upper case. -/
def upperSql (sql : String) : List Char := (Text.trimChars sql.toList).map Char.toUpper

def declares (parameters : List QueryParameter) (name : String) : Bool :=
  parameters.any fun parameter => parameter.name = name

/-- The position of a parameter, from 1; 0 when it is missing. -/
def positionOf (parameters : List QueryParameter) (name : String) : ℕ :=
  ((parameters.findIdx? fun parameter => parameter.name = name).map (· + 1)).getD 0

def officeConstraint (parameters : List QueryParameter) : String :=
  "ANY(" ++ placeholder (positionOf parameters "office_ids") ++ "::BIGINT[])"

def NoUnsafeCommand (sql : String) : Prop :=
  ∀ command ∈ UNSAFE_SQL_COMMANDS, command.toList ∉ sqlTokens (upperSql sql)

/-- No semicolon but a final one. -/
def SingleStatement (sql : String) : Prop :=
  ';' ∉ withoutFinalSemicolon (Text.trimChars sql.toList)

def ConstrainsOffices (parameters : List QueryParameter) (sql : String) : Prop :=
  mentions (upperSql sql) (officeConstraint parameters) = true

theorem noUnsafeCommand_iff (sql : String) : (UNSAFE_SQL_COMMANDS.all fun command =>
    !(sqlTokens (upperSql sql)).elem command.toList) = true ↔ NoUnsafeCommand sql := by
  simp [NoUnsafeCommand]

instance (sql : String) : Decidable (NoUnsafeCommand sql) :=
  decidable_of_iff _ (noUnsafeCommand_iff sql)

instance (sql : String) : Decidable (SingleStatement sql) := by
  unfold SingleStatement; infer_instance

instance (parameters : List QueryParameter) (sql : String) :
    Decidable (ConstrainsOffices parameters sql) := by
  unfold ConstrainsOffices; infer_instance

/-- No unsafe command, one statement, and the offices constrained where they are declared. -/
structure SafeStatement (parameters : List QueryParameter) (sql : String) : Prop where
  noUnsafeCommand : NoUnsafeCommand sql
  singleStatement : SingleStatement sql
  constrainsOffices : declares parameters "office_ids" = true → ConstrainsOffices parameters sql

/-- The scan of a query's file makes these checks. -/
theorem validateSqlSafety_safe {query : QueryKnowledge} {sql : String}
    (h : validateSqlSafety query sql = .ok ()) : SafeStatement query.parameters sql := by
  simp only [validateSqlSafety, bind_eq_ok_iff, exists_unit_iff, failIf_eq_ok, forEach_eq_ok] at h
  obtain ⟨-, hsingle, hcommands, -, -, hoffices, -⟩ := h
  refine ⟨hcommands, hsingle, fun hdeclared => ?_⟩
  by_contra hmissing
  exact hoffices ⟨hdeclared, Bool.eq_false_iff.mpr hmissing⟩

/-! ### Without trimming -/

theorem isTokenChar_of_isWhitespace {c : Char} (h : Text.isWhitespace c = true) :
    isTokenChar c = false := by
  have hunderscore : c ≠ '_' := by
    rintro rfl
    exact absurd h (by decide)
  simp [isTokenChar, Text.whitespace_isAlphanum h, hunderscore]

theorem upper_whitespace {text : List Char} (h : ∀ c ∈ text, Text.isWhitespace c = true) :
    text.map Char.toUpper = text := by
  conv_rhs => rw [← List.map_id text]
  apply List.map_congr_left
  intro c hc
  exact Text.toUpper_of_isWhitespace (h c hc)

theorem upperSql_spec (sql : String) : ∃ front back,
    sql.toList.map Char.toUpper = front ++ upperSql sql ++ back ∧
      (∀ c ∈ front, Text.isWhitespace c = true) ∧ ∀ c ∈ back, Text.isWhitespace c = true := by
  obtain ⟨front, back, htext, hfront, hback⟩ := Text.trimChars_spec sql.toList
  refine ⟨front, back, ?_, hfront, hback⟩
  conv_lhs => rw [htext]
  rw [List.map_append, List.map_append, upper_whitespace hfront, upper_whitespace hback]
  rfl

theorem sqlTokens_upperSql (sql : String) :
    sqlTokens (upperSql sql) = sqlTokens (sql.toList.map Char.toUpper) := by
  obtain ⟨front, back, htext, hfront, hback⟩ := upperSql_spec sql
  have hseparator : ∀ c, Text.isWhitespace c = true → (!isTokenChar c) = true := by
    intro c hc
    rw [isTokenChar_of_isWhitespace hc, Bool.not_false]
  unfold sqlTokens
  rw [htext, Text.tokenChars_append_separators _ fun c hc => hseparator c (hback c hc),
    Text.tokenChars_separators_append _ fun c hc => hseparator c (hfront c hc)]

/-- The pattern has no whitespace. -/
theorem officeConstraint_whitespace (parameters : List QueryParameter) {c : Char}
    (h : Text.isWhitespace c = true) : c ∉ (officeConstraint parameters).toList := by
  have hplain : ∀ text : List Char, text.any Text.isWhitespace = false → c ∉ text := by
    intro text htext hc
    exact List.any_eq_false.mp htext c hc h
  unfold officeConstraint placeholder
  simp only [String.toList_append, List.mem_append]
  rintro ((hc | hc | hc) | hc)
  · exact hplain _ (by decide +kernel) hc
  · exact hplain _ (by decide +kernel) hc
  · have hdigit := Text.repr_isDigit hc
    have halphanum := Text.whitespace_isAlphanum h
    simp [Char.isAlphanum, hdigit] at halphanum
  · exact hplain _ (by decide +kernel) hc

theorem mentions_upperSql (parameters : List QueryParameter) (sql : String) :
    ConstrainsOffices parameters sql ↔
      mentions (sql.toList.map Char.toUpper) (officeConstraint parameters) = true := by
  obtain ⟨front, back, htext, hfront, hback⟩ := upperSql_spec sql
  have hpattern : (officeConstraint parameters).toList ≠ [] := by
    unfold officeConstraint
    simp
  unfold ConstrainsOffices mentions
  rw [htext]
  exact (Text.containsChars_outside hpattern
    (fun c hc => officeConstraint_whitespace parameters (hfront c hc))
    fun c hc => officeConstraint_whitespace parameters (hback c hc)).symm

/-! ### The placeholder of the offices -/

theorem dollar_mem_officeConstraint (parameters : List QueryParameter) :
    '$' ∈ (officeConstraint parameters).toList := by
  unfold officeConstraint placeholder
  simp

/-- A text that names no placeholder constrains nothing. -/
theorem mentions_of_not_mem (parameters : List QueryParameter) {text : List Char}
    (h : '$' ∉ text) :
    mentions (text.map Char.toUpper) (officeConstraint parameters) = false := by
  rw [Bool.eq_false_iff]
  intro hmentions
  obtain ⟨c, hc, hupper⟩ := List.mem_map.mp
    (Text.mem_of_containsChars hmentions (dollar_mem_officeConstraint parameters))
  rw [Text.toUpper_eq_iff (by decide)] at hupper
  exact h (hupper ▸ hc)

theorem officeConstraint_number (parameters : List QueryParameter) {text : List Char}
    (h : mentions (text.map Char.toUpper) (officeConstraint parameters) = true) :
    positionOf parameters "office_ids" ∈ Text.numbersAfter '$' text := by
  rw [← Text.numbersAfter_toUpper (by decide : '$'.isAlpha = false)]
  have hpattern : (officeConstraint parameters).toList = "ANY(".toList ++
      '$' :: ((toString (positionOf parameters "office_ids")).toList ++
        ':' :: ":BIGINT[])".toList) := by
    have hdollar : "$".toList = ['$'] := by decide
    have hcast : "::BIGINT[])".toList = ':' :: ":BIGINT[])".toList := by decide
    unfold officeConstraint placeholder
    simp only [String.toList_append, hdollar, hcast, List.append_assoc, List.cons_append,
      List.nil_append]
  unfold mentions at h
  rw [hpattern] at h
  exact Text.mem_numbersAfter (by decide) (by decide) h

theorem positionOf_le (parameters : List QueryParameter) (name : String) :
    positionOf parameters name ≤ parameters.length := by
  unfold positionOf
  cases hfind : parameters.findIdx? fun parameter => parameter.name = name with
  | none => simp
  | some index =>
    have hlt := (List.findIdx?_eq_some_iff_getElem.mp hfind).1
    simp
    omega

/-! ### Semicolons -/

/-- Only whitespace follows the first semicolon. -/
def endsStatement : List Char → Bool
  | [] => true
  | c :: rest => if c = ';' then rest.all Text.isWhitespace else endsStatement rest

theorem endsStatement_of_not_mem {text : List Char} (h : ';' ∉ text) :
    endsStatement text = true := by
  induction text with
  | nil => rfl
  | cons c rest ih =>
    have hc : c ≠ ';' := fun hc => h (hc ▸ List.mem_cons_self)
    rw [endsStatement, if_neg hc]
    exact ih fun hrest => h (List.mem_cons_of_mem _ hrest)

theorem endsStatement_iff {text : List Char} : endsStatement text = true ↔
    ';' ∉ text ∨ ∃ front back, text = front ++ ';' :: back ∧ ';' ∉ front ∧
      ∀ c ∈ back, Text.isWhitespace c = true := by
  induction text with
  | nil => simp [endsStatement]
  | cons c rest ih =>
    rw [endsStatement]
    by_cases hc : c = ';'
    · subst hc
      rw [if_pos rfl, List.all_eq_true]
      constructor
      · exact fun h => Or.inr ⟨[], rest, rfl, List.not_mem_nil, h⟩
      · rintro (hnone | ⟨front, back, htext, hfront, hback⟩)
        · exact absurd List.mem_cons_self hnone
        · cases front with
          | nil =>
            obtain rfl : rest = back := (List.cons.inj htext).2
            exact hback
          | cons d front =>
            exact absurd ((List.cons.inj htext).1 ▸ List.mem_cons_self) hfront
    · rw [if_neg hc, ih]
      constructor
      · rintro (hnone | ⟨front, back, rfl, hfront, hback⟩)
        · exact Or.inl (by simp [hnone, Ne.symm hc])
        · exact Or.inr ⟨c :: front, back, rfl, by simp [hfront, Ne.symm hc], hback⟩
      · rintro (hnone | ⟨front, back, htext, hfront, hback⟩)
        · exact Or.inl fun hrest => hnone (List.mem_cons_of_mem _ hrest)
        · cases front with
          | nil => exact absurd (List.cons.inj htext).1 hc
          | cons d front =>
            exact Or.inr ⟨front, back, (List.cons.inj htext).2,
              fun hmem => hfront (List.mem_cons_of_mem _ hmem), hback⟩

theorem endsStatement_append {front back : List Char} (h : ';' ∉ front) :
    endsStatement (front ++ back) = endsStatement back := by
  induction front with
  | nil => rfl
  | cons c rest ih =>
    have hc : c ≠ ';' := fun hc => h (hc ▸ List.mem_cons_self)
    rw [List.cons_append, endsStatement, if_neg hc]
    exact ih fun hrest => h (List.mem_cons_of_mem _ hrest)

/-- Nothing but whitespace may follow a semicolon. -/
theorem endsStatement_append_iff {front back : List Char} {c : Char} (hc : c ∈ back)
    (hspace : Text.isWhitespace c = false) :
    endsStatement (front ++ back) = true ↔ ';' ∉ front ∧ endsStatement back = true := by
  induction front with
  | nil => simp
  | cons d rest ih =>
    rw [List.cons_append, endsStatement]
    by_cases hd : d = ';'
    · rw [if_pos hd, List.all_eq_true]
      constructor
      · intro h
        rw [h c (List.mem_append_right _ hc)] at hspace
        cases hspace
      · exact fun h => absurd (hd ▸ List.mem_cons_self) h.1
    · rw [if_neg hd, ih, List.mem_cons, not_or, and_iff_right (Ne.symm hd)]

theorem withoutFinalSemicolon_append (text : List Char) :
    withoutFinalSemicolon (text ++ [';']) = text := by
  simp [withoutFinalSemicolon]

theorem trimChars_append_semicolon (front : List Char) {back : List Char}
    (h : ∀ c ∈ back, Text.isWhitespace c = true) :
    Text.trimChars (front ++ ';' :: back) = front.dropWhile Text.isWhitespace ++ [';'] := by
  have hsemicolon : Text.isWhitespace ';' = false := by decide
  have hdrop : ∀ (text rest : List Char), (text ++ ';' :: rest).dropWhile Text.isWhitespace =
      text.dropWhile Text.isWhitespace ++ ';' :: rest := by
    intro text rest
    induction text with
    | nil => rw [List.nil_append, List.dropWhile_cons_of_neg (by simp [hsemicolon])]; rfl
    | cons c text ih =>
      rw [List.cons_append, List.dropWhile_cons, List.dropWhile_cons, ih]
      split_ifs <;> rfl
  have hback : back.reverse.dropWhile Text.isWhitespace = [] :=
    List.dropWhile_eq_nil_iff.mpr fun c hc => h c (List.mem_reverse.mp hc)
  unfold Text.trimChars
  rw [hdrop, List.reverse_append, List.reverse_cons, List.append_assoc, List.singleton_append,
    hdrop, hback]
  simp

theorem singleStatement_iff {sql : String} :
    SingleStatement sql ↔ endsStatement sql.toList = true := by
  rw [endsStatement_iff]
  unfold SingleStatement
  constructor
  · intro h
    obtain ⟨front, back, htext, hfront, hback⟩ := Text.trimChars_spec sql.toList
    have hnot : ∀ text : List Char, (∀ c ∈ text, Text.isWhitespace c = true) → ';' ∉ text := by
      intro text hall hmem
      exact absurd (hall _ hmem) (by decide)
    unfold withoutFinalSemicolon at h
    split at h
    · rename_i hlast
      right
      have htrimmed := List.dropLast_append_getLast? ';' hlast
      refine ⟨front ++ (Text.trimChars sql.toList).dropLast, back, ?_, ?_, hback⟩
      · conv_lhs => rw [htext, ← htrimmed]
        simp
      · exact List.not_mem_append (hnot _ hfront) h
    · left
      rw [htext]
      exact List.not_mem_append (List.not_mem_append (hnot _ hfront) h) (hnot _ hback)
  · rintro (hnone | ⟨front, back, htext, hfront, hback⟩) hmem
    · obtain ⟨before, after, hsplit, -, -⟩ := Text.trimChars_spec sql.toList
      have hsub : ∀ text : List Char, ∀ c ∈ withoutFinalSemicolon text, c ∈ text := by
        intro text c hc
        unfold withoutFinalSemicolon at hc
        split at hc
        · exact List.mem_of_mem_dropLast hc
        · exact hc
      apply hnone
      rw [hsplit]
      exact List.mem_append_left _ (List.mem_append_right _ (hsub _ _ hmem))
    · rw [htext, trimChars_append_semicolon _ hback, withoutFinalSemicolon_append] at hmem
      exact hfront ((List.dropWhile_suffix _).subset hmem)

/-! ### Placeholders -/

theorem placeholderNumbers_eq (text : List Char) :
    placeholderNumbers text = (Text.numbersAfter '$' text).filter fun n => decide (n < 2 ^ 64) := by
  induction text with
  | nil => rfl
  | cons c rest ih =>
    by_cases hc : c = '$'
    · subst hc
      rw [placeholderNumbers, Text.numbersAfter, if_pos rfl, List.filter_append, ih]
      cases Text.parseDigits (rest.takeWhile Char.isDigit) with
      | none => rfl
      | some n =>
        have hsingle : ∀ p : ℕ → Bool, ((some n).filter p).toList = [n].filter p := by
          intro p
          cases hp : p n <;> simp [Option.filter, hp]
        rw [hsingle]
        rfl
    · rw [Text.numbersAfter_cons _ hc, ← ih]
      rw [placeholderNumbers]
      simpa using hc

/-- The highest placeholder of a statement, 0 when it has none. -/
def highestPlaceholder (sql : String) : ℕ := (Text.numbersAfter '$' sql.toList).foldr max 0

theorem foldr_max_eq {numbers : List ℕ} {n : ℕ} :
    numbers.foldr max 0 = n ↔ (∀ m ∈ numbers, m ≤ n) ∧ (n = 0 ∨ n ∈ numbers) := by
  induction numbers generalizing n with
  | nil => simp [eq_comm]
  | cons m rest ih =>
    rw [List.foldr_cons]
    have hrest := (ih (n := rest.foldr max 0)).mp rfl
    constructor
    · rintro rfl
      refine ⟨List.forall_mem_cons.mpr ⟨le_max_left _ _, fun k hk =>
        (hrest.1 k hk).trans (le_max_right _ _)⟩, ?_⟩
      rcases max_choice m (rest.foldr max 0) with hm | hm
      · exact Or.inr (by rw [hm]; exact List.mem_cons_self)
      · rw [hm]
        exact hrest.2.imp id fun h => List.mem_cons_of_mem _ h
    · rintro ⟨hall, hmem⟩
      have hle : max m (rest.foldr max 0) ≤ n := by
        apply max_le (hall m List.mem_cons_self)
        rcases hrest.2 with hzero | hin
        · omega
        · exact hall _ (List.mem_cons_of_mem _ hin)
      rcases hmem with rfl | hin
      · omega
      · apply le_antisymm hle
        obtain rfl | hin := List.mem_cons.mp hin
        · exact le_max_left _ _
        · exact (hrest.1 n hin).trans (le_max_right _ _)

theorem highestPlaceholder_eq {sql : String} {n : ℕ} : highestPlaceholder sql = n ↔
    (∀ m ∈ Text.numbersAfter '$' sql.toList, m ≤ n) ∧
      (n = 0 ∨ n ∈ Text.numbersAfter '$' sql.toList) :=
  foldr_max_eq

/-- The scan leaves no placeholder out and, as far as it reads numbers, none over. -/
theorem validateSqlSafety_numbers {query : QueryKnowledge} {sql : String}
    (h : validateSqlSafety query sql = .ok ()) :
    (∀ index, 1 ≤ index → index ≤ query.parameters.length →
      index ∈ Text.numbersAfter '$' sql.toList ∧ index < 2 ^ 64) ∧
    ∀ index ∈ Text.numbersAfter '$' sql.toList, index < 2 ^ 64 →
      index ≤ query.parameters.length := by
  simp only [validateSqlSafety, bind_eq_ok_iff, exists_unit_iff] at h
  obtain ⟨-, -, -, hplaceholders, -⟩ := h
  have hread : ∀ index, index ∈ placeholderNumbers (Text.trimChars sql.toList) ↔
      index ∈ Text.numbersAfter '$' sql.toList ∧ index < 2 ^ 64 := by
    intro index
    rw [placeholderNumbers_eq, Text.numbersAfter_trimChars (by decide), List.mem_filter,
      decide_eq_true_eq]
  simp only [validatePlaceholders, bind_eq_ok_iff, exists_unit_iff, forEach_eq_ok,
    failIf_eq_ok] at hplaceholders
  obtain ⟨hall, hnone, -⟩ := hplaceholders
  constructor
  · intro index hlow hhigh
    have hmem : index ∈ List.range' 1 query.parameters.length := by
      rw [List.mem_range'_1]
      omega
    exact (hread index).mp (not_not.mp (hall index hmem))
  · intro index hmem hfits
    by_contra hover
    exact hnone ⟨index, (hread index).mpr ⟨hmem, hfits⟩, not_le.mp hover⟩

/-- The highest placeholder of a scanned statement, when all of its numbers were read. -/
theorem highestPlaceholder_scanned {query : QueryKnowledge} {sql : String}
    (h : validateSqlSafety query sql = .ok ()) :
    highestPlaceholder sql = query.parameters.length ↔
      ∀ index ∈ Text.numbersAfter '$' sql.toList, index < 2 ^ 64 := by
  obtain ⟨hall, hnone⟩ := validateSqlSafety_numbers h
  rw [highestPlaceholder_eq]
  constructor
  · rintro ⟨hbound, -⟩ index hindex
    have hle := hbound index hindex
    by_cases hzero : query.parameters.length = 0
    · omega
    · have hfits := (hall query.parameters.length (by omega) le_rfl).2
      omega
  · intro hfits
    refine ⟨fun index hindex => hnone index hindex (hfits index hindex), ?_⟩
    by_cases hzero : query.parameters.length = 0
    · exact Or.inl hzero
    · exact Or.inr (hall query.parameters.length (by omega) le_rfl).1

end FineractReports.SqlSafety
