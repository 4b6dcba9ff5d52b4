import FineractReports.Assistant.IdentifierCuts
import FineractReports.Library.Text

/-!
# Digits in texts

Where the digits of an identifier stand in a text, hyphens and whitespace between them. An
identifier that is detected stands in its text, and the text that is left of a message holds no
digits that the message does not.
-/

namespace FineractReports.IdentifierIntake

/-- A stretch of the text reads as the digits. -/
def Holds (text digits : List Char) : Prop :=
  ∃ stretch, stretch <:+: text ∧ (∀ c ∈ stretch, isRunChar c = true) ∧
    stretch.filter Char.isDigit = digits

/-- The identifier that the intake detects in a text. -/
def identifierOf (text : String) : Option SensitiveIdentifier :=
  (identifierIntake text).toOption.bind (·.sensitiveIdentifier)

/-- What the intake leaves of a text. -/
def semanticText (text : String) : String :=
  ((identifierIntake text).toOption.map (·.semanticMessage)).getD text

/-- The digits of an identifier that the intake detects. -/
def Detects (text : String) (digits : List Char) : Prop :=
  ∃ identifier, identifierOf text = some identifier ∧ identifier.value.toList = digits

section Holds

variable {text other pre post digits : List Char}

theorem Holds.mono (h : Holds text digits) (hwithin : text <:+: other) : Holds other digits := by
  obtain ⟨stretch, hstretch, hrun, hdigits⟩ := h
  exact ⟨stretch, hstretch.trans hwithin, hrun, hdigits⟩

theorem not_holds_of_no_digit (hdigits : digits ≠ [])
    (h : text.all (fun c => !c.isDigit) = true) : ¬ Holds text digits := by
  rintro ⟨stretch, hstretch, -, rfl⟩
  apply hdigits
  rw [List.filter_eq_nil_iff]
  intro c hc
  have hnone := List.all_eq_true.mp h c (hstretch.subset hc)
  simpa using hnone

/-- A stretch without the character that parts two texts is within one of them. -/
theorem infix_of_parted {c : Char} {stretch : List Char} (hc : c ∉ stretch)
    (h : stretch <:+: pre ++ c :: post) : stretch <:+: pre ∨ stretch <:+: post := by
  induction pre with
  | nil =>
    rcases List.infix_cons_iff.mp h with hbegins | hwithin
    · cases stretch with
      | nil => exact Or.inl List.nil_infix
      | cons first rest =>
        have hfirst := (List.cons_prefix_cons.mp hbegins).1
        exact absurd (hfirst ▸ List.mem_cons_self) hc
    · exact Or.inr hwithin
  | cons first rest ih =>
    rcases List.infix_cons_iff.mp h with hbegins | hwithin
    · rcases List.prefix_or_prefix_of_prefix hbegins
        (List.prefix_append (first :: rest) (c :: post)) with hfront | ⟨tail, rfl⟩
      · exact Or.inl hfront.isInfix
      · have htail : tail <+: c :: post := (List.prefix_append_right_inj (first :: rest)).mp hbegins
        cases tail with
        | nil =>
          rw [List.append_nil]
          exact Or.inl List.infix_rfl
        | cons second later =>
          have hsecond := (List.cons_prefix_cons.mp htail).1
          exact absurd (List.mem_append_right _ (hsecond ▸ List.mem_cons_self)) hc
    · rcases ih hwithin with hrest | hpost
      · exact Or.inl (hrest.trans (List.suffix_cons _ _).isInfix)
      · exact Or.inr hpost

theorem Holds.of_append {c : Char} (hc : isRunChar c = false)
    (h : Holds (pre ++ c :: post) digits) : Holds pre digits ∨ Holds post digits := by
  obtain ⟨stretch, hstretch, hrun, hdigits⟩ := h
  have hparted : c ∉ stretch := fun hmem => by simpa [hc] using hrun c hmem
  rcases infix_of_parted hparted hstretch with hpre | hpost
  · exact Or.inl ⟨stretch, hpre, hrun, hdigits⟩
  · exact Or.inr ⟨stretch, hpost, hrun, hdigits⟩

/-- Behind characters that are no part of a run, the digits stand in the rest. -/
theorem Holds.of_covered {cover : List Char} (hcover : ∀ c ∈ cover, isRunChar c = false)
    (hdigits : digits ≠ []) (h : Holds (cover ++ post) digits) : Holds post digits := by
  induction cover with
  | nil => exact h
  | cons c rest ih =>
    apply ih fun other hother => hcover other (List.mem_cons_of_mem _ hother)
    have hparted : Holds ([] ++ c :: (rest ++ post)) digits := h
    rcases hparted.of_append (hcover c List.mem_cons_self) with hnil | hrest
    · exact absurd hnil (not_holds_of_no_digit hdigits rfl)
    · exact hrest

/-- A placeholder holds no digits, and none across it. -/
theorem Holds.of_placeholder {cover : List Char} (hcover : ∀ c ∈ cover, isRunChar c = false)
    (hne : cover ≠ []) (hdigits : digits ≠ []) (h : Holds (pre ++ cover ++ post) digits) :
    Holds pre digits ∨ Holds post digits := by
  cases cover with
  | nil => exact absurd rfl hne
  | cons c rest =>
    rw [List.append_assoc, List.cons_append] at h
    obtain ⟨hc, hrest⟩ := List.forall_mem_cons.mp hcover
    rcases h.of_append hc with hpre | hpost
    · exact Or.inl hpre
    · exact Or.inr (hpost.of_covered hrest hdigits)

/-- Characters that are no digits can be left out at the front. -/
theorem Holds.of_front {front : List Char} (hfront : ∀ c ∈ front, c.isDigit = false)
    (h : Holds (front ++ text) digits) : Holds text digits := by
  induction front with
  | nil => exact h
  | cons c rest ih =>
    obtain ⟨hc, hrest⟩ := List.forall_mem_cons.mp hfront
    apply ih hrest
    obtain ⟨stretch, hstretch, hrun, hdigits⟩ := h
    rcases List.infix_cons_iff.mp hstretch with hbegins | hwithin
    · cases stretch with
      | nil => exact ⟨[], List.nil_infix, hrun, hdigits⟩
      | cons first tail =>
        obtain ⟨hfirst, htail⟩ := List.cons_prefix_cons.mp hbegins
        rw [List.filter_cons_of_neg (by simp [hfirst, hc])] at hdigits
        exact ⟨tail, htail.isInfix, fun other hother => hrun other
          (List.mem_cons_of_mem _ hother), hdigits⟩
    · exact ⟨stretch, hwithin, hrun, hdigits⟩

theorem Holds.reverse (h : Holds text digits) : Holds text.reverse digits.reverse := by
  obtain ⟨stretch, hstretch, hrun, rfl⟩ := h
  refine ⟨stretch.reverse, List.reverse_infix.mpr hstretch, ?_, List.filter_reverse⟩
  intro c hc
  exact hrun c (List.mem_reverse.mp hc)

theorem not_digit_of_isWhitespace {c : Char} (h : Text.isWhitespace c = true) :
    c.isDigit = false := by
  rw [Bool.eq_false_iff]
  intro hdigit
  simp only [Char.isDigit, Bool.and_eq_true, decide_eq_true_eq, ge_iff_le,
    UInt32.le_iff_toNat_le] at hdigit
  obtain ⟨hlow, hhigh⟩ := hdigit
  change 48 ≤ c.toNat at hlow
  change c.toNat ≤ 57 at hhigh
  simp only [Text.isWhitespace, Bool.or_eq_true, decide_eq_true_eq, List.mem_cons,
    List.not_mem_nil, or_false] at h
  omega

/-- Trimming a text keeps its digits. -/
theorem holds_trim_iff {text : String} :
    Holds (Text.trim text).toList digits ↔ Holds text.toList digits := by
  have hwhite : ∀ chars : List Char,
      ∀ c ∈ chars.takeWhile Text.isWhitespace, c.isDigit = false := fun chars c hc =>
    not_digit_of_isWhitespace (List.mem_takeWhile_imp hc)
  have hdrop : ∀ chars wanted : List Char,
      Holds (chars.dropWhile Text.isWhitespace) wanted ↔ Holds chars wanted := by
    intro chars wanted
    constructor
    · intro h
      exact h.mono (List.dropWhile_suffix _).isInfix
    · intro h
      rw [← List.takeWhile_append_dropWhile (p := Text.isWhitespace) (l := chars)] at h
      exact h.of_front (hwhite chars)
  have hreverse : ∀ chars wanted : List Char,
      Holds chars.reverse wanted ↔ Holds chars wanted.reverse := by
    intro chars wanted
    constructor
    · intro h
      simpa using h.reverse
    · intro h
      simpa using h.reverse
  rw [Text.trim, String.toList_ofList, Text.trimChars, hreverse, hdrop, hreverse,
    List.reverse_reverse, hdrop]

end Holds

/-! ### What is detected -/

section Detection

variable {text : String} {digits : List Char}

/-- A message without a detected identifier stays as it is, and a placeholder takes the place
of a detected one. -/
theorem intake_cases (text : String) :
    identifierIntake text = .ok ⟨text, none⟩ ∨
      ∃ pre span post, ∃ marker ∈ markers, text.toList = pre ++ span ++ post ∧
        (∀ c ∈ span, isRunChar c = true) ∧ 4 ≤ (span.filter Char.isDigit).length ∧
        identifierIntake text =
          .ok ⟨String.ofList (pre ++ marker.placeholder.toList ++ post),
            some ⟨marker.kind, String.ofList (span.filter Char.isDigit)⟩⟩ := by
  rcases intakeBy_spec text.toList markers fun marker => markerWords with
    ⟨hok, -⟩ | ⟨front, marker, back, index, hlist, -, hfirst, hok⟩
  · left
    rw [String.ofList_toList] at hok
    exact hok
  · right
    have hmarker : marker ∈ markers := by
      rw [hlist]
      exact List.mem_append_right _ List.mem_cons_self
    have hparts := (cut_of_labels (markerWords hmarker) hfirst.labels).parts
    refine ⟨_, _, _, marker, hmarker, hparts, ?_, ?_, ?_⟩
    · intro c hc
      have hrun := (List.rdropWhile_prefix _ _).subset hc
      exact List.mem_takeWhile_imp hrun
    · rw [filter_spanAfter]
      exact hfirst.labels.identifier
    · rw [filter_spanAfter]
      exact hok

theorem identifierIntake_eq (text : String) :
    identifierIntake text = .ok ⟨semanticText text, identifierOf text⟩ := by
  rcases intake_cases text with hok | ⟨pre, span, post, marker, -, -, -, -, hok⟩
  · simp [semanticText, identifierOf, hok, Except.toOption]
  · simp [semanticText, identifierOf, hok, Except.toOption]

theorem Detects.ne_nil (h : Detects text digits) : digits ≠ [] := by
  obtain ⟨identifier, hidentifier, rfl⟩ := h
  rcases intake_cases text with hok | ⟨pre, span, post, marker, -, -, -, hlength, hok⟩
  · simp [identifierOf, hok, Except.toOption] at hidentifier
  · simp only [identifierOf, hok, Except.toOption, Option.bind_some, Option.some.injEq]
      at hidentifier
    subst hidentifier
    rw [String.toList_ofList]
    intro hnil
    rw [hnil] at hlength
    cases hlength

/-- A detected identifier stands in its text. -/
theorem Detects.holds (h : Detects text digits) : Holds text.toList digits := by
  obtain ⟨identifier, hidentifier, rfl⟩ := h
  rcases intake_cases text with hok | ⟨pre, span, post, marker, -, hparts, hrun, -, hok⟩
  · simp [identifierOf, hok, Except.toOption] at hidentifier
  · simp only [identifierOf, hok, Except.toOption, Option.bind_some, Option.some.injEq]
      at hidentifier
    subst hidentifier
    rw [String.toList_ofList]
    refine ⟨span, ?_, hrun, rfl⟩
    rw [hparts]
    exact List.infix_append pre span post

/-- What is left of a text holds no digits that the text does not. -/
theorem holds_of_semanticText (hdigits : digits ≠ [])
    (h : Holds (semanticText text).toList digits) : Holds text.toList digits := by
  rcases intake_cases text with hok | ⟨pre, span, post, marker, hmarker, hparts, -, -, hok⟩
  · simpa [semanticText, hok, Except.toOption] using h
  · have hplaceholders : ∀ marker ∈ markers,
        marker.placeholder.toList.all (fun c => !isRunChar c) = true ∧
          marker.placeholder.toList ≠ [] := by decide
    obtain ⟨hall, hne⟩ := hplaceholders marker hmarker
    have hcover : ∀ c ∈ marker.placeholder.toList, isRunChar c = false := by simpa using hall
    simp only [semanticText, hok, Except.toOption, Option.map_some, Option.getD_some,
      String.toList_ofList] at h
    rw [hparts]
    rcases h.of_placeholder hcover hne hdigits with hpre | hpost
    · exact hpre.mono (by rw [List.append_assoc]; exact (List.prefix_append _ _).isInfix)
    · exact hpost.mono (List.suffix_append _ _).isInfix

end Detection

end FineractReports.IdentifierIntake
