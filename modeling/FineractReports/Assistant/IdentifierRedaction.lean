import FineractReports.Assistant.IdentifierCuts

/-!
# Redaction of identifiers

The intake never panics. It leaves no identifier behind and tells a loan number from a
savings account number exactly when the identifiers of the message stand at one place, a
marker before it occurs first there, and the words of a loan account number are not taken
for those of the account number they end in.
-/

namespace FineractReports.IdentifierIntake

open Utf8

/-- The message split around a span, in front of which the marker is the longest. -/
structure Splits (text : List Char) (intake : IdentifierIntake) (pre span post : List Char)
    (marker : Marker) : Prop where
  parts : text = pre ++ span ++ post
  semantic : intake.semanticMessage =
    String.ofList (pre ++ marker.placeholder.toList ++ post)
  identifier : intake.sensitiveIdentifier =
    some ⟨marker.kind, String.ofList (span.filter Char.isDigit)⟩
  ends : EndsBefore marker.words.toList text pre
  longest : ∀ other ∈ markers, EndsBefore other.words.toList text pre →
    other.words.toList.length ≤ marker.words.toList.length

structure Redacted (message : String) (intake : IdentifierIntake) : Prop where
  splits : (intake.semanticMessage = message ∧ intake.sensitiveIdentifier = none) ∨
    ∃ pre span post, ∃ marker ∈ markers, Splits message.toList intake pre span post marker
  clean : ¬ Labelled intake.semanticMessage.toList

/-- All identifiers stand at one place, the text behind the number labels none on its own,
and a marker occurs first there; for a loan account number these are its own words, and
those of an account number occur earlier. -/
structure RedactableAt (text : List Char) (place : ℕ) : Prop where
  only : ∀ marker ∈ markers, ∀ index, Labels marker.words.toList text index →
    index + marker.words.toList.length = place
  rest : ¬ Labelled (restAfter (text.drop place))
  first : ∃ marker ∈ markers, ∃ index, FirstLabels marker.words.toList text index
  loan : ∀ index, Labels loanAccountNumber text index →
    FirstLabels loanAccountNumber text index ∧
      ∃ earlier, BoundedAt accountNumber text earlier ∧ earlier + accountNumber.length < place

def Redactable (text : List Char) : Prop := ¬ Labelled text ∨ ∃ place, RedactableAt text place

/-! ### Kinds -/

theorem placeholder_of_kind {marker other : Marker} (h : marker ∈ markers)
    (hother : other ∈ markers)
    (hkind : marker.kind = other.kind) : marker.placeholder = other.placeholder := by
  have hall : ∀ marker ∈ markers, ∀ other ∈ markers, marker.kind = other.kind →
      marker.placeholder = other.placeholder := by decide
  exact hall marker h other hother hkind

/-- A marker at the end of another is of its kind, but for the account number. -/
theorem kind_of_suffix {marker other : Marker} (h : marker ∈ markers) (hother : other ∈ markers)
    (hsuffix : marker.words.toList <:+ other.words.toList) : marker.kind = other.kind ∨
      marker.words.toList = accountNumber ∧ other.words.toList = loanAccountNumber := by
  have hall : ∀ marker ∈ markers, ∀ other ∈ markers,
      marker.words.toList <:+ other.words.toList → marker.kind = other.kind ∨
        marker.words.toList = accountNumber ∧ other.words.toList = loanAccountNumber := by decide
  exact hall marker h other hother hsuffix

theorem loan_of_suffix {marker : Marker} (h : marker ∈ markers)
    (hsuffix : loanAccountNumber <:+ marker.words.toList) : marker.kind = .loanNumber := by
  revert marker
  decide

theorem words_of_loan {marker : Marker} (h : marker ∈ markers) (hkind : marker.kind = .loanNumber)
    (hends : marker.words.toList <:+ loanAccountNumber ∨
      loanAccountNumber <:+ marker.words.toList) : marker.words.toList = loanAccountNumber := by
  revert marker
  decide

/-- The account number is tried before the loan account number. -/
theorem accountNumber_before {front back : List Marker} {marker : Marker}
    (h : markers = front ++ marker :: back) (hwords : marker.words.toList = loanAccountNumber) :
    ∃ other ∈ front, other.words.toList = accountNumber := by
  have hlt : front.length < markers.length := by
    rw [h, List.length_append, List.length_cons]
    omega
  have hmarker : markers[front.length] = marker := by
    have hget : markers[front.length]? = some marker := by
      rw [h, List.getElem?_append_right le_rfl, Nat.sub_self]
      rfl
    exact (List.getElem?_eq_some_iff.mp hget).2
  have hfront : front = markers.take front.length := by rw [h, List.take_left]
  have hthree : ∀ n (hn : n < markers.length),
      (markers[n]).words.toList = loanAccountNumber →
        ∃ other ∈ markers.take n, other.words.toList = accountNumber := by decide
  rw [hfront]
  apply hthree _ hlt
  rw [hmarker, hwords]

/-! ### The redacted message -/

section Redaction

variable {text : List Char} {front back : List Marker} {marker : Marker} {index : ℕ}

/-- The redaction at an identifier covers the number of a cut. -/
theorem redaction_cut (hmarker : marker ∈ markers)
    (h : Labels marker.words.toList text index) : ∃ pre span post,
      Cut text (index + marker.words.toList.length) pre span post ∧
      (redaction text marker (index + marker.words.toList.length)).semanticMessage =
        String.ofList (pre ++ marker.placeholder.toList ++ post) ∧
      (redaction text marker (index + marker.words.toList.length)).sensitiveIdentifier =
        some ⟨marker.kind, String.ofList (span.filter Char.isDigit)⟩ ∧
      post = restAfter (text.drop (index + marker.words.toList.length)) := by
  refine ⟨_, _, _, cut_of_labels (markerWords hmarker) h, rfl, ?_, rfl⟩
  rw [filter_spanAfter]
  rfl

/-- Where a marker labels, a marker that ends there labels too. -/
theorem Labels.of_same_end {words others : List Char} {shifted : ℕ} (h : Labels words text index)
    (hother : BoundedAt others text shifted)
    (hends : shifted + others.length = index + words.length) : Labels others text shifted :=
  ⟨hother, by rw [hends]; exact h.identifier⟩

theorem loan_mem : ∃ marker ∈ markers, marker.words.toList = loanAccountNumber :=
  ⟨⟨"loan account number", .loanNumber, "[LOAN_NUMBER]"⟩, by decide, rfl⟩

/-- The longest marker in front of a number. -/
theorem exists_longest {pre : List Char} (hmarker : marker ∈ markers)
    (h : EndsBefore marker.words.toList text pre) : ∃ longest ∈ markers,
      EndsBefore longest.words.toList text pre ∧ ∀ other ∈ markers,
        EndsBefore other.words.toList text pre →
          other.words.toList.length ≤ longest.words.toList.length := by
  classical
  obtain ⟨longest, hlongest, hmax⟩ := Finset.exists_max_image
    (markers.toFinset.filter fun other => EndsBefore other.words.toList text pre)
    (fun other => other.words.toList.length) ⟨marker, by simp [hmarker, h]⟩
  rw [Finset.mem_filter, List.mem_toFinset] at hlongest
  refine ⟨longest, hlongest.1, hlongest.2, fun other hother hends => ?_⟩
  apply hmax
  rw [Finset.mem_filter, List.mem_toFinset]
  exact ⟨hother, hends⟩

/-- In front of a number that ends a loan account number the redaction is of a loan. -/
theorem loan_of_redacted {pre span post : List Char} {place shifted : ℕ}
    {intake : IdentifierIntake} (hmarker : marker ∈ markers)
    (hcut : Cut text place pre span post)
    (hsemantic : intake.semanticMessage =
      String.ofList (pre ++ marker.placeholder.toList ++ post))
    (hidentifier : ∃ value, intake.sensitiveIdentifier = some ⟨marker.kind, value⟩)
    (hloan : BoundedAt loanAccountNumber text shifted)
    (hends : shifted + loanAccountNumber.length = place)
    (h : Redacted (String.ofList text) intake) : marker.kind = .loanNumber := by
  obtain ⟨value, hvalue⟩ := hidentifier
  rcases h.splits with ⟨-, hnone⟩ | ⟨pre', span', post', longest, hlongest, hsplits⟩
  · rw [hnone] at hvalue
    cases hvalue
  · have hsame := hsplits.identifier
    rw [hvalue] at hsame
    have hkind : longest.kind = marker.kind :=
      (congrArg SensitiveIdentifier.kind (Option.some.inj hsame)).symm
    have hplaceholder := placeholder_of_kind hlongest hmarker hkind
    have hparts := hsplits.parts
    have hresult := hsplits.semantic
    rw [String.toList_ofList] at hparts
    rw [hsemantic, hplaceholder] at hresult
    have hpre := hcut.pre_unique (placeholder hmarker) hparts (String.ofList_injective hresult)
    have hbefore := hsplits.ends
    rw [String.toList_ofList, hpre, hcut.endsBefore_iff (markerWords hlongest)] at hbefore
    obtain ⟨index, hbounded, hplace⟩ := hbefore
    obtain ⟨loan, hloanMem, hloanWords⟩ := loan_mem
    have hle : loanAccountNumber.length ≤ longest.words.toList.length := by
      rw [← hloanWords]
      apply hsplits.longest loan hloanMem
      rw [String.toList_ofList, hpre, hcut.endsBefore_iff (markerWords hloanMem), hloanWords]
      exact ⟨shifted, hloan, hends⟩
    rw [← hkind]
    exact loan_of_suffix hlongest (suffix_of_ends hloan hbounded (hends.trans hplace.symm) hle)

/-- A redaction that leaves nothing behind takes the one identifier of the message. -/
theorem redactableAt_of_redacted (hlist : markers = front ++ marker :: back)
    (hfront : ∀ other ∈ front, ∀ earlier, ¬ FirstLabels other.words.toList text earlier)
    (hfirst : FirstLabels marker.words.toList text index)
    (h : Redacted (String.ofList text)
      (redaction text marker (index + marker.words.toList.length))) :
    RedactableAt text (index + marker.words.toList.length) := by
  have hmarker : marker ∈ markers := by
    rw [hlist]
    exact List.mem_append_right _ List.mem_cons_self
  obtain ⟨pre, span, post, hcut, hsemantic, hidentifier, hpost⟩ :=
    redaction_cut hmarker hfirst.labels
  have hclean := h.clean
  rw [hsemantic, String.toList_ofList, hcut.labelled_iff (placeholder hmarker), not_or] at hclean
  obtain ⟨hearlier, hrest⟩ := hclean
  have honly : ∀ other ∈ markers, ∀ shifted, Labels other.words.toList text shifted →
      shifted + other.words.toList.length = index + marker.words.toList.length := by
    intro other hother shifted hlabels
    rcases hcut.occurrence (markerWords hother) hlabels.bounded with hle | hpast
    · rcases Nat.lt_or_eq_of_le hle with hlt | heq
      · exact absurd ⟨other, hother, shifted, hlabels, hlt⟩ hearlier
      · exact heq
    · rw [hcut.parts] at hlabels
      rw [← List.length_append] at hpast
      exact absurd ⟨other, hother, _, hlabels.drop_front hpast⟩ hrest
  refine ⟨honly, by rwa [← hpost], ⟨marker, hmarker, index, hfirst⟩, fun shifted hloan => ?_⟩
  obtain ⟨loan, hloanMem, hloanWords⟩ := loan_mem
  have hends : shifted + loanAccountNumber.length = index + marker.words.toList.length := by
    rw [← hloanWords]
    exact honly loan hloanMem shifted (by rw [hloanWords]; exact hloan)
  have hkind : marker.kind = .loanNumber :=
    loan_of_redacted hmarker hcut hsemantic ⟨_, hidentifier⟩ hloan.bounded hends h
  have hwords : marker.words.toList = loanAccountNumber := by
    apply words_of_loan hmarker hkind
    rcases Nat.le_total marker.words.toList.length loanAccountNumber.length with hle | hle
    · exact Or.inl (suffix_of_ends hfirst.labels.bounded hloan.bounded hends.symm hle)
    · exact Or.inr (suffix_of_ends hloan.bounded hfirst.labels.bounded hends hle)
  have hindex : shifted = index := by
    rw [hwords] at hends
    omega
  rw [hwords] at hfirst
  refine ⟨by rw [hindex]; exact hfirst, ?_⟩
  -- the account number was tried before, and its first occurrence was another one
  obtain ⟨account, haccount, haccountWords⟩ := accountNumber_before hlist hwords
  have hnever := hfront account haccount
  rw [haccountWords] at hnever
  have hbounded := accountNumber_of_loan hloan.bounded
  have hfive : loanAccountNumber.length = 5 + accountNumber.length := by decide
  have hlabels : Labels accountNumber text (shifted + 5) :=
    hloan.of_same_end hbounded (by omega)
  by_contra hnone
  apply hnever (shifted + 5)
  refine ⟨hlabels, fun earlier hlt hoccurs => hnone ⟨earlier, hoccurs, by omega⟩⟩

theorem redacted_of_redactableAt (hmarker : marker ∈ markers)
    (hfirst : FirstLabels marker.words.toList text index)
    (h : RedactableAt text (index + marker.words.toList.length)) :
    Redacted (String.ofList text)
      (redaction text marker (index + marker.words.toList.length)) := by
  obtain ⟨pre, span, post, hcut, hsemantic, hidentifier, hpost⟩ :=
    redaction_cut hmarker hfirst.labels
  refine ⟨Or.inr ?_, ?_⟩
  · have hbefore := (hcut.endsBefore_iff (markerWords hmarker)).mpr
      ⟨index, hfirst.labels.bounded, rfl⟩
    obtain ⟨longest, hlongest, hends, hmax⟩ := exists_longest hmarker hbefore
    obtain ⟨shifted, hbounded, hplace⟩ := (hcut.endsBefore_iff (markerWords hlongest)).mp hends
    have hsuffix := suffix_of_ends hfirst.labels.bounded hbounded hplace.symm
      (hmax marker hmarker hbefore)
    have hkind : marker.kind = longest.kind := by
      rcases kind_of_suffix hmarker hlongest hsuffix with hsame | ⟨haccount, hloan⟩
      · exact hsame
      -- an account number of a loan does not occur first
      · rw [hloan] at hbounded hplace
        obtain ⟨-, earlier, hoccurs, hlt⟩ :=
          h.loan shifted (hfirst.labels.of_same_end hbounded hplace)
        rw [← haccount] at hoccurs hlt
        exact absurd hoccurs (hfirst.first earlier (by omega))
    have hplaceholder := placeholder_of_kind hmarker hlongest hkind
    refine ⟨pre, span, post, longest, hlongest, ?_⟩
    rw [String.toList_ofList]
    exact ⟨hcut.parts, by rw [hsemantic, hplaceholder], by rw [hidentifier, hkind], hends, hmax⟩
  · rw [hsemantic, String.toList_ofList, hcut.labelled_iff (placeholder hmarker)]
    rintro (⟨other, hother, shifted, hlabels, hlt⟩ | hrest)
    · have hplace := h.only other hother shifted hlabels
      omega
    · rw [hpost] at hrest
      exact h.rest hrest

end Redaction

/-- The intake ends without a panic, and its result is a redaction of the message exactly
when the message is redactable. -/
theorem intake_redacts_iff (message : String) : ∃ intake,
    identifierIntake message = .ok intake ∧
      (Redacted message intake ↔ Redactable message.toList) := by
  have hmessage : String.ofList message.toList = message := String.ofList_toList
  unfold identifierIntake
  rcases intakeBy_spec message.toList markers fun marker => markerWords with
    ⟨hok, hall⟩ | ⟨front, marker, back, index, hlist, hfront, hfirst, hok⟩
  · refine ⟨_, hok, ?_⟩
    constructor
    · intro hredacted
      have hclean := hredacted.clean
      rw [String.toList_ofList] at hclean
      exact Or.inl hclean
    · rintro (hclean | ⟨place, hat⟩)
      · refine ⟨Or.inl ⟨hmessage, rfl⟩, ?_⟩
        rwa [String.toList_ofList]
      · obtain ⟨marker, hmarker, index, hfirst⟩ := hat.first
        exact absurd hfirst (hall marker hmarker index)
  · have hmarker : marker ∈ markers := by
      rw [hlist]
      exact List.mem_append_right _ List.mem_cons_self
    refine ⟨_, hok, ?_⟩
    constructor
    · intro hredacted
      have hchars : Redacted (String.ofList message.toList)
          (redaction message.toList marker (index + marker.words.toList.length)) := by
        rwa [hmessage]
      exact Or.inr ⟨_, redactableAt_of_redacted hlist hfront hfirst hchars⟩
    · rintro (hclean | ⟨place, hat⟩)
      · exact absurd ⟨marker, hmarker, index, hfirst.labels⟩ hclean
      · rw [← hat.only marker hmarker index hfirst.labels] at hat
        have hredacted := redacted_of_redactableAt hmarker hfirst hat
        rwa [hmessage] at hredacted

/-- The second of two account numbers is left behind. -/
example : identifierIntake "Move account number 12345678 to account number 87654321" =
    .ok ⟨"Move account number [SAVINGS_ACCOUNT_NUMBER] to account number 87654321",
      some ⟨.savingsAccountNumber, "12345678"⟩⟩ := by
  decide +kernel

/-! A loan account number in a question about a loan. -/

namespace LoanTerms

def message : String := "What are the terms for loan account number 0000 7788?"

def account : Marker :=
  ⟨"account number", .savingsAccountNumber, "[SAVINGS_ACCOUNT_NUMBER]"⟩

def intake : IdentifierIntake where
  semanticMessage := "What are the terms for loan account number [SAVINGS_ACCOUNT_NUMBER]?"
  sensitiveIdentifier := some ⟨.savingsAccountNumber, "00007788"⟩

theorem loan_taken_for_savings :
    identifierIntake message = .ok intake ∧ ¬ Redacted message intake := by
  refine ⟨by decide +kernel, fun h => ?_⟩
  have hbounded : BoundedAt account.words.toList message.toList 28 := by decide +kernel
  have hlabels : Labels account.words.toList message.toList 28 := ⟨hbounded, by decide +kernel⟩
  have hloan : BoundedAt loanAccountNumber message.toList 23 := by decide +kernel
  have hintake : redaction message.toList account 42 = intake := by decide +kernel
  obtain ⟨pre, span, post, hcut, hsemantic, hidentifier, -⟩ :=
    redaction_cut (by decide : account ∈ markers) hlabels
  have hplace : 28 + account.words.toList.length = 42 := by decide
  rw [hplace, hintake] at hsemantic hidentifier
  rw [← String.ofList_toList (s := message)] at h
  have hkind := loan_of_redacted (by decide) hcut hsemantic ⟨_, hidentifier⟩ hloan (by decide) h
  cases hkind

end LoanTerms

end FineractReports.IdentifierIntake
