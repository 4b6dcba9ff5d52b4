import FineractReports.Library.Text

/-!
# Tokens of joined texts

What scanners find in a text that is joined from pieces: tokens between separators,
occurrences of a pattern and the numbers written after a mark. A character that cannot
belong to a find keeps the finds of both sides apart.
-/

namespace FineractReports.Text

/-! ### Trimming -/

/-- Trimming takes whitespace off both ends. -/
theorem trimChars_spec (text : List Char) : ∃ front back, text = front ++ trimChars text ++ back ∧
    (∀ c ∈ front, isWhitespace c = true) ∧ ∀ c ∈ back, isWhitespace c = true := by
  have hsplit : text.takeWhile isWhitespace ++ text.dropWhile isWhitespace = text :=
    List.takeWhile_append_dropWhile
  have hrest : ((text.dropWhile isWhitespace).reverse.takeWhile isWhitespace) ++
      ((text.dropWhile isWhitespace).reverse.dropWhile isWhitespace) =
        (text.dropWhile isWhitespace).reverse := List.takeWhile_append_dropWhile
  refine ⟨text.takeWhile isWhitespace,
    ((text.dropWhile isWhitespace).reverse.takeWhile isWhitespace).reverse, ?_, ?_, ?_⟩
  · have hdrop : text.dropWhile isWhitespace = trimChars text ++
        ((text.dropWhile isWhitespace).reverse.takeWhile isWhitespace).reverse := by
      unfold trimChars
      rw [← List.reverse_append, hrest, List.reverse_reverse]
    rw [List.append_assoc, ← hdrop, hsplit]
  · exact fun c hc => List.mem_takeWhile_imp hc
  · intro c hc
    exact List.mem_takeWhile_imp (List.mem_reverse.mp hc)

theorem isWhitespace_bounds {c : Char} (h : isWhitespace c = true) :
    c.toNat ≤ 32 ∨ 133 ≤ c.toNat := by
  simp only [isWhitespace, Bool.or_eq_true, decide_eq_true_eq, List.mem_cons, List.not_mem_nil,
    or_false] at h
  omega

theorem whitespace_isAlphanum {c : Char} (h : isWhitespace c = true) : c.isAlphanum = false := by
  have hbounds := isWhitespace_bounds h
  simp only [Char.isAlphanum, isAlpha_eq, isUpper_eq, isLower_eq, Char.isDigit,
    Char.toNat] at hbounds ⊢
  grind [UInt32.le_iff_toNat_le]

/-! ### Tokens -/

section Tokens

variable {isSeparator : Char → Bool}

/-- A separator ends the tokens before it and starts those after it. -/
theorem tokenChars_append_cons (before after : List Char) {c : Char} (h : isSeparator c = true) :
    tokenChars isSeparator (before ++ c :: after) =
      tokenChars isSeparator before ++ tokenChars isSeparator after := by
  unfold tokenChars
  rw [List.splitOnP_append_cons before after h, List.filter_append]

theorem tokenChars_cons (after : List Char) {c : Char} (h : isSeparator c = true) :
    tokenChars isSeparator (c :: after) = tokenChars isSeparator after := by
  have happend := tokenChars_append_cons [] after h
  simpa [tokenChars] using happend

theorem tokenChars_separators_append {front : List Char} (after : List Char)
    (h : ∀ c ∈ front, isSeparator c = true) :
    tokenChars isSeparator (front ++ after) = tokenChars isSeparator after := by
  induction front with
  | nil => rfl
  | cons c rest ih =>
    rw [List.cons_append, tokenChars_cons _ (h c List.mem_cons_self)]
    exact ih fun d hd => h d (List.mem_cons_of_mem _ hd)

theorem tokenChars_append_separators (before : List Char) {back : List Char}
    (h : ∀ c ∈ back, isSeparator c = true) :
    tokenChars isSeparator (before ++ back) = tokenChars isSeparator before := by
  cases back with
  | nil => rw [List.append_nil]
  | cons c rest =>
    have hrest : tokenChars isSeparator rest = [] := by
      have hall := tokenChars_separators_append [] fun d hd => h d (List.mem_cons_of_mem _ hd)
      rw [List.append_nil] at hall
      rw [hall]
      simp [tokenChars]
    rw [tokenChars_append_cons _ _ (h c List.mem_cons_self), hrest, List.append_nil]

/-- The characters of a token are characters of the text. -/
theorem mem_of_mem_tokenChars {text token : List Char} {c : Char}
    (htoken : token ∈ tokenChars isSeparator text) (hc : c ∈ token) : c ∈ text := by
  have hpiece : token ∈ text.splitOnP isSeparator := (List.mem_filter.mp htoken).1
  induction text generalizing token with
  | nil =>
    rw [List.splitOnP_nil, List.mem_singleton] at hpiece
    subst hpiece
    cases hc
  | cons d rest ih =>
    rw [List.splitOnP_cons_eq_if_modifyHead] at hpiece
    have hnonempty : ∀ piece : List Char, c ∈ piece → piece ∈ rest.splitOnP isSeparator →
        c ∈ d :: rest := by
      intro piece hmem hin
      have hne : piece ≠ [] := List.ne_nil_of_mem hmem
      exact List.mem_cons_of_mem _ (ih (List.mem_filter.mpr ⟨hin, by simpa using hne⟩) hmem hin)
    split_ifs at hpiece with hseparator
    · obtain rfl | hin := List.mem_cons.mp hpiece
      · cases hc
      · exact hnonempty token hc hin
    · cases hsplit : rest.splitOnP isSeparator with
      | nil => exact absurd hsplit (List.splitOnP_ne_nil _ _)
      | cons first others =>
        rw [hsplit, List.modifyHead_cons] at hpiece
        obtain rfl | hin := List.mem_cons.mp hpiece
        · obtain rfl | hfirst := List.mem_cons.mp hc
          · exact List.mem_cons_self
          · exact hnonempty first hfirst (hsplit ▸ List.mem_cons_self)
        · exact hnonempty token hc (hsplit ▸ List.mem_cons_of_mem _ hin)

end Tokens

/-! ### Occurrences of a pattern -/

/-- A pattern without the character occurs on one side of it. -/
theorem containsChars_append_cons {pattern : List Char} (before after : List Char) {c : Char}
    (h : c ∉ pattern) : containsChars pattern (before ++ c :: after) = true ↔
      containsChars pattern before = true ∨ containsChars pattern after = true := by
  rw [containsChars_iff, containsChars_iff, containsChars_iff]
  constructor
  · rintro ⟨front, back, hjoined⟩
    rw [List.append_assoc] at hjoined
    obtain ⟨middle, hbefore, hrest⟩ | ⟨middle, hfront, hrest⟩ :=
      List.append_eq_append_iff.mp hjoined
    · left
      obtain ⟨tail, hmiddle, -⟩ | ⟨tail, hpattern, htail⟩ := List.append_eq_append_iff.mp hrest
      · exact ⟨front, tail, by rw [hbefore, hmiddle, List.append_assoc]⟩
      · cases tail with
        | nil => exact ⟨front, [], by rw [hbefore, hpattern, List.append_nil, List.append_nil]⟩
        | cons d tail =>
          have hhead := (List.cons.inj htail).1
          exact absurd (hpattern ▸ hhead ▸ by simp) h
    · cases middle with
      | nil =>
        cases pattern with
        | nil => exact Or.inl List.nil_infix
        | cons d pattern =>
          have hhead := (List.cons.inj hrest).1
          exact absurd (hhead ▸ List.mem_cons_self) h
      | cons d middle =>
        right
        have htail := (List.cons.inj hrest).2
        exact ⟨middle, back, by rw [List.append_assoc]; exact htail.symm⟩
  · rintro (hbefore | hafter)
    · exact hbefore.trans List.infix_append_left
    · exact hafter.trans ((List.suffix_cons c after).isInfix.trans List.infix_append_right)

theorem mem_of_containsChars {pattern text : List Char} {c : Char}
    (h : containsChars pattern text = true) (hc : c ∈ pattern) : c ∈ text :=
  (containsChars_iff.mp h).subset hc

/-- What shares no character with the pattern does not matter around the text. -/
theorem containsChars_outside {pattern front text back : List Char} (hpattern : pattern ≠ [])
    (hfront : ∀ c ∈ front, c ∉ pattern) (hback : ∀ c ∈ back, c ∉ pattern) :
    containsChars pattern (front ++ text ++ back) = true ↔ containsChars pattern text = true := by
  have hnil : containsChars pattern [] ≠ true := by
    simpa [containsChars, List.isEmpty_iff] using hpattern
  have htail : containsChars pattern (text ++ back) = true ↔ containsChars pattern text = true := by
    cases back with
    | nil => rw [List.append_nil]
    | cons c rest =>
      rw [containsChars_append_cons _ _ (hback c List.mem_cons_self), or_iff_left]
      intro hrest
      obtain ⟨d, hd⟩ := List.exists_mem_of_ne_nil _ hpattern
      exact hback d (List.mem_cons_of_mem _ (mem_of_containsChars hrest hd)) hd
  rw [List.append_assoc, ← htail]
  induction front with
  | nil => rfl
  | cons c rest ih =>
    have hcons := containsChars_append_cons [] (rest ++ (text ++ back))
      (hfront c List.mem_cons_self)
    rw [List.nil_append, or_iff_right hnil] at hcons
    rw [List.cons_append, hcons]
    exact ih fun d hd => hfront d (List.mem_cons_of_mem _ hd)

/-! ### Numbers after a mark -/

/-- The numerals that follow a mark. -/
def numbersAfter (mark : Char) : List Char → List ℕ
  | [] => []
  | c :: rest =>
    if c = mark then (parseDigits (rest.takeWhile Char.isDigit)).toList ++ numbersAfter mark rest
    else numbersAfter mark rest

section Numbers

variable {mark : Char}

theorem takeWhile_append_cons {p : Char → Bool} (before after : List Char) {c : Char}
    (h : p c = false) : (before ++ c :: after).takeWhile p = before.takeWhile p := by
  induction before with
  | nil => simp [h]
  | cons d rest ih =>
    rw [List.cons_append, List.takeWhile_cons, List.takeWhile_cons, ih]

/-- A character that is no digit ends the numeral before it. -/
theorem numbersAfter_append_cons (before after : List Char) {c : Char} (h : c.isDigit = false) :
    numbersAfter mark (before ++ c :: after) =
      numbersAfter mark before ++ numbersAfter mark (c :: after) := by
  induction before with
  | nil => rfl
  | cons d rest ih =>
    rw [List.cons_append, numbersAfter, numbersAfter, ih, takeWhile_append_cons rest after h]
    split_ifs
    · rw [List.append_assoc]
    · rfl

theorem numbersAfter_cons (after : List Char) {c : Char} (h : c ≠ mark) :
    numbersAfter mark (c :: after) = numbersAfter mark after := by
  rw [numbersAfter, if_neg h]

theorem numbersAfter_eq_nil {text : List Char} (h : mark ∉ text) :
    numbersAfter mark text = [] := by
  induction text with
  | nil => rfl
  | cons c rest ih =>
    have hc : c ≠ mark := fun hc => h (hc ▸ List.mem_cons_self)
    rw [numbersAfter_cons rest hc]
    exact ih fun hrest => h (List.mem_cons_of_mem _ hrest)

theorem repr_isDigit {n : ℕ} {c : Char} (h : c ∈ (toString n).toList) : c.isDigit = true := by
  have hdigits : (toString n).toList = Nat.toDigits 10 n := Nat.toList_repr
  rw [hdigits] at h
  exact Nat.isDigit_of_mem_toDigits (by omega) (by omega) h

theorem parseDigits_repr (n : ℕ) : parseDigits (toString n).toList = some n := by
  have hdigits : (toString n).toList = Nat.toDigits 10 n := Nat.toList_repr
  have hall : (toString n).toList.all Char.isDigit = true :=
    List.all_eq_true.mpr fun c hc => repr_isDigit hc
  have hvalue : Nat.ofDigitChars 10 (Nat.toDigits 10 n) 0 = n := Nat.ofDigitChars_ten_toDigits
  rw [hdigits] at hall ⊢
  unfold parseDigits
  rw [if_pos ⟨Nat.toDigits_ne_nil, hall⟩]
  exact congrArg some hvalue

/-- A numeral is read back as what it was written from. -/
theorem repr_injective {m n : ℕ} (h : (toString m).toList = (toString n).toList) : m = n := by
  have hm := parseDigits_repr m
  rw [h, parseDigits_repr] at hm
  exact (Option.some.inj hm).symm

/-- The last mark of a text tells what stands before it and after it. -/
theorem append_mark_inj {a b c d : List Char} (hb : mark ∉ b) (hd : mark ∉ d)
    (h : a ++ mark :: b = c ++ mark :: d) : a = c ∧ b = d := by
  rcases List.append_eq_append_iff.mp h with ⟨mid, rfl, hmid⟩ | ⟨mid, rfl, hmid⟩
  · cases mid with
    | nil =>
      rw [List.nil_append, List.cons.injEq] at hmid
      exact ⟨(List.append_nil a).symm, hmid.2⟩
    | cons head rest =>
      rw [List.cons_append, List.cons.injEq] at hmid
      exact absurd (hmid.2 ▸ List.mem_append_right _ List.mem_cons_self) hb
  · cases mid with
    | nil =>
      rw [List.nil_append, List.cons.injEq] at hmid
      exact ⟨List.append_nil c, hmid.2.symm⟩
    | cons head rest =>
      rw [List.cons_append, List.cons.injEq] at hmid
      exact absurd (hmid.2 ▸ List.mem_append_right _ List.mem_cons_self) hd

/-- The mark, a numeral and what ends it. -/
theorem numbersAfter_mark_repr (n : ℕ) (after : List Char) {c : Char} (hc : c.isDigit = false)
    (hmark : mark.isDigit = false) :
    numbersAfter mark (mark :: ((toString n).toList ++ c :: after)) =
      n :: numbersAfter mark (c :: after) := by
  have hdigits : ((toString n).toList ++ c :: after).takeWhile Char.isDigit =
      (toString n).toList := by
    rw [takeWhile_append_cons _ _ hc]
    exact List.takeWhile_eq_self_iff.mpr fun d hd => repr_isDigit hd
  have hnone : numbersAfter mark (toString n).toList = [] := by
    apply numbersAfter_eq_nil
    intro hmem
    rw [repr_isDigit hmem] at hmark
    cases hmark
  rw [numbersAfter, if_pos rfl, hdigits, parseDigits_repr, numbersAfter_append_cons _ _ hc, hnone]
  rfl

/-- A numeral that occurs after its mark is found. -/
theorem mem_numbersAfter {n : ℕ} {before after text : List Char} {c : Char}
    (hc : c.isDigit = false) (hmark : mark.isDigit = false)
    (h : containsChars (before ++ mark :: ((toString n).toList ++ c :: after)) text = true) :
    n ∈ numbersAfter mark text := by
  obtain ⟨front, back, rfl⟩ := containsChars_iff.mp h
  have hjoined : front ++ (before ++ mark :: ((toString n).toList ++ c :: after)) ++ back =
      (front ++ before) ++ mark :: ((toString n).toList ++ c :: (after ++ back)) := by simp
  rw [hjoined, numbersAfter_append_cons _ _ hmark, numbersAfter_mark_repr n _ hc hmark]
  exact List.mem_append_right _ List.mem_cons_self

end Numbers

/-! ### Joined pieces -/

/-- The text is empty or its first character is of the kind. -/
def BeginsIn (kind : Char → Bool) (text : List Char) : Prop := ∀ c ∈ text.head?, kind c = true

section Pieces

variable {kind : Char → Bool}

theorem beginsIn_nil : BeginsIn kind [] := by
  intro c hc
  cases hc

theorem beginsIn_cons {c : Char} {rest : List Char} :
    BeginsIn kind (c :: rest) ↔ kind c = true := by
  simp [BeginsIn]

theorem beginsIn_append {before after : List Char} (hbefore : BeginsIn kind before)
    (hafter : BeginsIn kind after) : BeginsIn kind (before ++ after) := by
  cases before with
  | nil => exact hafter
  | cons c rest => exact beginsIn_cons.mpr (beginsIn_cons.mp hbefore)

theorem beginsIn_flatten {pieces : List (List Char)} (h : ∀ piece ∈ pieces, BeginsIn kind piece) :
    BeginsIn kind pieces.flatten := by
  induction pieces with
  | nil => exact beginsIn_nil
  | cons piece rest ih =>
    rw [List.flatten_cons]
    exact beginsIn_append (h piece List.mem_cons_self)
      (ih fun other hother => h other (List.mem_cons_of_mem _ hother))

/-- A scanner that never reads across the start of a piece scans each piece on its own. -/
theorem scan_flatten {β : Type*} (scan : List Char → List β) (hnil : scan [] = [])
    (happend : ∀ before after, BeginsIn kind after →
      scan (before ++ after) = scan before ++ scan after)
    {pieces : List (List Char)} (h : ∀ piece ∈ pieces, BeginsIn kind piece) :
    scan pieces.flatten = pieces.flatMap scan := by
  induction pieces with
  | nil => exact hnil
  | cons piece rest ih =>
    have hrest : ∀ other ∈ rest, BeginsIn kind other :=
      fun other hother => h other (List.mem_cons_of_mem _ hother)
    rw [List.flatten_cons, happend _ _ (beginsIn_flatten hrest), ih hrest, List.flatMap_cons]

theorem scan_flatMap {ι β : Type*} (scan : List Char → List β) (hnil : scan [] = [])
    (happend : ∀ before after, BeginsIn kind after →
      scan (before ++ after) = scan before ++ scan after)
    {items : List ι} {piece : ι → List Char} (h : ∀ item ∈ items, BeginsIn kind (piece item)) :
    scan (items.flatMap piece) = items.flatMap fun item => scan (piece item) := by
  have hpieces : ∀ text ∈ items.map piece, BeginsIn kind text := by
    intro text htext
    obtain ⟨item, hitem, rfl⟩ := List.mem_map.mp htext
    exact h item hitem
  rw [List.flatMap_def, scan_flatten scan hnil happend hpieces, List.flatMap_map]

end Pieces

theorem tokenChars_append {isSeparator : Char → Bool} {before after : List Char}
    (h : BeginsIn isSeparator after) : tokenChars isSeparator (before ++ after) =
      tokenChars isSeparator before ++ tokenChars isSeparator after := by
  cases after with
  | nil => simp [tokenChars]
  | cons c rest =>
    have hc := beginsIn_cons.mp h
    rw [tokenChars_append_cons _ _ hc, tokenChars_cons _ hc]

/-- A token stands between separators or the ends of the text. -/
structure Stands (isSeparator : Char → Bool) (before token after : List Char) : Prop where
  nonempty : token ≠ []
  run : ∀ c ∈ token, isSeparator c = false
  front : ∀ c ∈ before.getLast?, isSeparator c = true
  back : BeginsIn isSeparator after

section Stands

variable {isSeparator : Char → Bool} {before token after text : List Char}

theorem tokenChars_run (hne : token ≠ []) (hrun : ∀ c ∈ token, isSeparator c = false) :
    tokenChars isSeparator token = [token] := by
  rw [tokenChars, List.splitOnP_eq_singleton hrun]
  simp [hne]

theorem Stands.tokenChars (h : Stands isSeparator before token after) :
    tokenChars isSeparator (before ++ token ++ after) =
      tokenChars isSeparator before ++ token :: tokenChars isSeparator after := by
  have hfront : Text.tokenChars isSeparator (before ++ token) =
      Text.tokenChars isSeparator before ++ [token] := by
    rw [← tokenChars_run h.nonempty h.run]
    induction before using List.reverseRecOn with
    | nil => simp [Text.tokenChars]
    | append_singleton before c _ =>
      have hc : isSeparator c = true := h.front c (by simp)
      have hend := tokenChars_append_cons before [] hc
      rw [List.append_assoc, List.singleton_append, tokenChars_append_cons _ _ hc, hend]
      simp [Text.tokenChars]
  rw [tokenChars_append h.back, hfront, List.append_assoc, List.singleton_append]

/-- A text begins with a separator or with a token. -/
theorem exists_first_token (hne : text ≠ []) : (∃ c rest, text = c :: rest ∧ isSeparator c = true) ∨
    ∃ token rest, text = token ++ rest ∧ Stands isSeparator [] token rest := by
  obtain ⟨c, rest, rfl⟩ := List.exists_cons_of_ne_nil hne
  cases hc : isSeparator c with
  | true => exact Or.inl ⟨c, rest, rfl, hc⟩
  | false =>
    right
    refine ⟨(c :: rest).takeWhile fun d => !isSeparator d,
      (c :: rest).dropWhile fun d => !isSeparator d, List.takeWhile_append_dropWhile.symm,
      ?_, ?_, ?_, ?_⟩
    · simp [hc]
    · intro d hd
      simpa using List.mem_takeWhile_imp hd
    · simp
    · intro d hd
      have hnot := List.head?_dropWhile_not (fun d => !isSeparator d) (c :: rest)
      rw [Option.mem_def.mp hd] at hnot
      simpa using hnot

/-- Every token stands in the text behind the tokens before it. -/
theorem exists_stands {index : ℕ} (h : (tokenChars isSeparator text)[index]? = some token) :
    ∃ before after, text = before ++ token ++ after ∧ Stands isSeparator before token after ∧
      (tokenChars isSeparator before).length = index := by
  induction hsize : text.length using Nat.strong_induction_on generalizing text index with
  | h size ih =>
    subst hsize
    by_cases hne : text = []
    · subst hne
      simp [tokenChars] at h
    rcases @exists_first_token isSeparator text hne with
      ⟨c, rest, rfl, hc⟩ | ⟨first, rest, rfl, hfirst⟩
    · rw [tokenChars_cons rest hc] at h
      obtain ⟨before, after, rfl, hstands, hlength⟩ := ih rest.length (by simp) h rfl
      refine ⟨c :: before, after, rfl, { hstands with front := ?_ }, ?_⟩
      · cases before with
        | nil => simpa using hc
        | cons d before => exact hstands.front
      · rw [tokenChars_cons before hc, hlength]
    · have htokens := hfirst.tokenChars
      rw [List.nil_append] at htokens
      rw [htokens, tokenChars, List.splitOnP_nil] at h
      cases index with
      | zero =>
        obtain rfl : first = token := by simpa using h
        exact ⟨[], rest, rfl, hfirst, by simp [tokenChars]⟩
      | succ index =>
        have hshorter : rest.length < (first ++ rest).length := by
          have hpos := List.length_pos_of_ne_nil hfirst.nonempty
          rw [List.length_append]
          omega
        obtain ⟨before, after, rfl, hstands, hlength⟩ :=
          ih rest.length hshorter (by simpa using h) rfl
        -- what follows the first token begins with a separator, which keeps the two apart
        obtain ⟨c, before, rfl⟩ : ∃ c tail, before = c :: tail := by
          apply List.exists_cons_of_ne_nil
          rintro rfl
          obtain ⟨d, others, hothers⟩ := List.exists_cons_of_ne_nil hstands.nonempty
          have hseparator := hfirst.back d (by simp [hothers])
          rw [hstands.run d (by rw [hothers]; exact List.mem_cons_self)] at hseparator
          cases hseparator
        have hbegins : BeginsIn isSeparator (c :: before) := beginsIn_cons.mpr (hfirst.back c rfl)
        refine ⟨first ++ c :: before, after, by simp, { hstands with front := ?_ }, ?_⟩
        · rw [List.getLast?_append_of_ne_nil _ (List.cons_ne_nil c before)]
          exact hstands.front
        · rw [tokenChars_append hbegins, tokenChars_run hfirst.nonempty hfirst.run,
            List.length_append, hlength, List.length_singleton, Nat.add_comm]

end Stands

theorem numbersAfter_append {mark : Char} {before after : List Char}
    (h : BeginsIn (fun c => !c.isDigit) after) :
    numbersAfter mark (before ++ after) = numbersAfter mark before ++ numbersAfter mark after := by
  cases after with
  | nil => simp [numbersAfter]
  | cons c rest =>
    have hc := beginsIn_cons.mp h
    exact numbersAfter_append_cons _ _ (by simpa using hc)

theorem numbersAfter_repr (mark : Char) (n : ℕ) (hmark : mark.isDigit = false) :
    numbersAfter mark (mark :: (toString n).toList) = [n] := by
  have hdigits : (toString n).toList.takeWhile Char.isDigit = (toString n).toList :=
    List.takeWhile_eq_self_iff.mpr fun d hd => repr_isDigit hd
  have hnone : numbersAfter mark (toString n).toList = [] := by
    apply numbersAfter_eq_nil
    intro hmem
    rw [repr_isDigit hmem] at hmark
    cases hmark
  rw [numbersAfter, if_pos rfl, hdigits, parseDigits_repr, hnone]
  rfl

theorem numbersAfter_skip {mark : Char} {front : List Char} (text : List Char)
    (h : mark ∉ front) : numbersAfter mark (front ++ text) = numbersAfter mark text := by
  induction front with
  | nil => rfl
  | cons c rest ih =>
    have hc : c ≠ mark := fun hc => h (hc ▸ List.mem_cons_self)
    rw [List.cons_append, numbersAfter_cons _ hc]
    exact ih fun hrest => h (List.mem_cons_of_mem _ hrest)

/-- Trimming loses no number. -/
theorem numbersAfter_trimChars {mark : Char} (h : isWhitespace mark = false) (text : List Char) :
    numbersAfter mark (trimChars text) = numbersAfter mark text := by
  obtain ⟨front, back, htext, hfront, hback⟩ := trimChars_spec text
  have hmark : ∀ part : List Char, (∀ c ∈ part, isWhitespace c = true) → mark ∉ part := by
    intro part hpart hmem
    rw [hpart mark hmem] at h
    cases h
  have hbegin : BeginsIn (fun c => !c.isDigit) back := by
    intro c hc
    have halphanum := whitespace_isAlphanum (hback c (List.mem_of_mem_head? hc))
    simp only [Char.isAlphanum, Bool.or_eq_false_iff] at halphanum
    simp [halphanum.2]
  conv_rhs => rw [htext]
  rw [numbersAfter_append hbegin, numbersAfter_eq_nil (hmark back hback), List.append_nil,
    numbersAfter_skip _ (hmark front hfront)]

section Occurrences

variable {pattern : List Char} {mark : Char}

theorem containsChars_nil (h : pattern ≠ []) : containsChars pattern [] = false := by
  simpa [containsChars, List.isEmpty_iff] using h

/-- A pattern without the mark occurs before it or after it. -/
theorem containsChars_append (hmark : mark ∉ pattern) (hpattern : pattern ≠ [])
    (before : List Char) {after : List Char} (h : BeginsIn (fun c => c = mark) after) :
    containsChars pattern (before ++ after) = true ↔
      containsChars pattern before = true ∨ containsChars pattern after = true := by
  have hnil : containsChars pattern [] ≠ true := by
    rw [containsChars_nil hpattern]
    decide
  cases after with
  | nil => rw [List.append_nil, or_iff_left hnil]
  | cons c rest =>
    obtain rfl : c = mark := by simpa using beginsIn_cons.mp h
    have hcons := containsChars_append_cons [] rest hmark
    rw [List.nil_append, or_iff_right hnil] at hcons
    rw [containsChars_append_cons _ _ hmark, hcons]

theorem containsChars_flatten (hmark : mark ∉ pattern) (hpattern : pattern ≠ [])
    {pieces : List (List Char)} (h : ∀ piece ∈ pieces, BeginsIn (fun c => c = mark) piece) :
    containsChars pattern pieces.flatten = true ↔
      ∃ piece ∈ pieces, containsChars pattern piece = true := by
  induction pieces with
  | nil => simp [containsChars_nil hpattern]
  | cons piece rest ih =>
    have hrest : ∀ other ∈ rest, BeginsIn (fun c => c = mark) other :=
      fun other hother => h other (List.mem_cons_of_mem _ hother)
    rw [List.flatten_cons, containsChars_append hmark hpattern _ (beginsIn_flatten hrest)]
    simp only [List.mem_cons, exists_eq_or_imp]
    exact or_congr Iff.rfl (ih hrest)

end Occurrences

/-! ### Upper case -/

section UpperCase

theorem toUpper_eq_self {c : Char} (h : c.isLower = false) : c.toUpper = c := by
  unfold Char.toUpper
  rw [dif_neg]
  intro hrange
  simp [isLower_eq] at h
  grind

theorem isUpper_toUpper {c : Char} (h : c.isLower = true) : c.toUpper.isUpper = true := by
  unfold Char.toUpper
  simp only [isLower_eq, Bool.and_eq_true, decide_eq_true_eq] at h
  rw [dif_pos h]
  simp only [isUpper_eq, decide_eq_true_eq]
  obtain ⟨hlow, hhigh⟩ := h
  constructor <;> grind

/-- Only letters have another upper case. -/
theorem toUpper_eq_iff {mark : Char} (h : mark.isAlpha = false) (c : Char) :
    c.toUpper = mark ↔ c = mark := by
  cases hlower : c.isLower with
  | false => rw [toUpper_eq_self hlower]
  | true =>
    have hupper := isUpper_toUpper hlower
    constructor
    · rintro rfl
      simp [isAlpha_eq, hupper] at h
    · rintro rfl
      simp [isAlpha_eq, hlower] at h

theorem isDigit_toUpper (c : Char) : c.toUpper.isDigit = c.isDigit := by
  cases hlower : c.isLower with
  | false => rw [toUpper_eq_self hlower]
  | true =>
    have hupper := isUpper_toUpper hlower
    have hdisjoint : ∀ d : Char, d.isUpper = true ∨ d.isLower = true → d.isDigit = false := by
      intro d hd
      simp only [isUpper_eq, isLower_eq, Char.isDigit, Bool.and_eq_true, decide_eq_true_eq,
        Bool.and_eq_false_iff, decide_eq_false_iff_not] at hd ⊢
      grind
    rw [hdisjoint _ (Or.inl hupper), hdisjoint c (Or.inr hlower)]

theorem toUpper_of_isDigit {c : Char} (h : c.isDigit = true) : c.toUpper = c := by
  apply toUpper_eq_self
  by_contra hlower
  simp only [isLower_eq, Char.isDigit, Bool.not_eq_false, Bool.and_eq_true,
    decide_eq_true_eq] at hlower h
  grind

theorem takeWhile_isDigit_toUpper (text : List Char) :
    (text.map Char.toUpper).takeWhile Char.isDigit = text.takeWhile Char.isDigit := by
  induction text with
  | nil => rfl
  | cons c rest ih =>
    rw [List.map_cons, List.takeWhile_cons, List.takeWhile_cons, isDigit_toUpper, ih]
    split_ifs with hdigit
    · rw [toUpper_of_isDigit hdigit]
    · rfl

/-- Upper case changes no number. -/
theorem numbersAfter_toUpper {mark : Char} (h : mark.isAlpha = false) (text : List Char) :
    numbersAfter mark (text.map Char.toUpper) = numbersAfter mark text := by
  induction text with
  | nil => rfl
  | cons c rest ih =>
    rw [List.map_cons, numbersAfter, numbersAfter, ih, takeWhile_isDigit_toUpper]
    simp only [toUpper_eq_iff h]

theorem toUpper_of_isWhitespace {c : Char} (h : isWhitespace c = true) : c.toUpper = c := by
  have halphanum := whitespace_isAlphanum h
  apply toUpper_eq_self
  simp only [Char.isAlphanum, isAlpha_eq, Bool.or_eq_false_iff] at halphanum
  exact halphanum.1.2

end UpperCase

/-! ### Prefixes and pieces -/

theorem stripPrefix_eq_some {text part rest : String} :
    stripPrefix text part = some rest ↔ text = part ++ rest := by
  unfold stripPrefix startsWith
  constructor
  · intro h
    split_ifs at h with hstart
    obtain rfl := Option.some.inj h
    obtain ⟨tail, htail⟩ := List.isPrefixOf_iff_prefix.mp hstart
    apply String.toList_injective
    rw [String.toList_append, String.toList_ofList, ← htail, List.drop_left]
  · rintro rfl
    have hstart : part.toList.isPrefixOf (part ++ rest).toList = true := by
      rw [String.toList_append]
      exact List.isPrefixOf_iff_prefix.mpr (List.prefix_append _ _)
    rw [if_pos hstart, String.toList_append, List.drop_left, String.ofList_toList]

theorem stripPrefix_eq_none {text part : String} :
    stripPrefix text part = none ↔ startsWith text part = false := by
  unfold stripPrefix
  split_ifs with h <;> simp [h]

/-- A separator in front of the rest splits it off. -/
theorem split_append_cons {isSeparator : Char → Bool} (before after : String) {c : Char}
    (h : isSeparator c = true) :
    split isSeparator (before ++ String.singleton c ++ after) =
      split isSeparator before ++ split isSeparator after := by
  unfold split
  have htext : (before ++ String.singleton c ++ after).toList =
      before.toList ++ c :: after.toList := by simp
  rw [htext, List.splitOnP_append_cons _ _ h, List.map_append]

/-- A character that does not separate belongs to a piece. -/
theorem mem_splitOnP {isSeparator : Char → Bool} {text : List Char} {c : Char} (hmem : c ∈ text)
    (hc : isSeparator c = false) : ∃ piece ∈ text.splitOnP isSeparator, c ∈ piece := by
  induction text with
  | nil => cases hmem
  | cons d rest ih =>
    rw [List.splitOnP_cons_eq_if_modifyHead]
    by_cases hd : isSeparator d = true
    · rw [if_pos hd]
      obtain rfl | hrest := List.mem_cons.mp hmem
      · rw [hc] at hd
        cases hd
      · obtain ⟨piece, hpiece, hin⟩ := ih hrest
        exact ⟨piece, List.mem_cons_of_mem _ hpiece, hin⟩
    · rw [if_neg hd]
      cases hsplit : rest.splitOnP isSeparator with
      | nil => exact absurd hsplit (List.splitOnP_ne_nil _ _)
      | cons first others =>
        rw [List.modifyHead_cons]
        obtain rfl | hrest := List.mem_cons.mp hmem
        · exact ⟨c :: first, List.mem_cons_self, List.mem_cons_self⟩
        · obtain ⟨piece, hpiece, hin⟩ := ih hrest
          rw [hsplit] at hpiece
          obtain rfl | hother := List.mem_cons.mp hpiece
          · exact ⟨d :: piece, List.mem_cons_self, List.mem_cons_of_mem _ hin⟩
          · exact ⟨piece, List.mem_cons_of_mem _ hother, hin⟩

theorem mem_split (isSeparator : Char → Bool) {text : String} {c : Char} (hmem : c ∈ text.toList)
    (hc : isSeparator c = false) : ∃ piece ∈ split isSeparator text, c ∈ piece.toList := by
  obtain ⟨piece, hpiece, hin⟩ := mem_splitOnP hmem hc
  exact ⟨String.ofList piece, List.mem_map_of_mem hpiece, by simpa using hin⟩

theorem mem_tokens (isSeparator : Char → Bool) {text : String} {c : Char} (hmem : c ∈ text.toList)
    (hc : isSeparator c = false) : ∃ token ∈ tokens isSeparator text, c ∈ token.toList := by
  obtain ⟨piece, hpiece, hin⟩ := mem_splitOnP hmem hc
  have hne : piece ≠ [] := List.ne_nil_of_mem hin
  refine ⟨String.ofList piece, List.mem_map_of_mem (List.mem_filter.mpr ⟨hpiece, ?_⟩),
    by simpa using hin⟩
  simpa using hne

end FineractReports.Text
