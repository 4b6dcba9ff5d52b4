import FineractReports.Library.DecimalText
import FineractReports.Presentation.HiddenFields

/-!
# Totals of the currencies

The amounts of a currency are added in the order of the rows; the digits and the symbol of
its total are those of its first row.
-/

namespace FineractReports.Assoc

variable {κ α : Type*} [DecidableEq κ]

theorem nodup_keys_insert {m : List (κ × α)} {k : κ} {a : α} (h : (keys m).Nodup) :
    (keys (insert m k a)).Nodup := by
  induction m with
  | nil => exact List.nodup_singleton k
  | cons e rest ih =>
    obtain ⟨j, b⟩ := e
    obtain ⟨hj, hrest⟩ := List.nodup_cons.mp h
    unfold insert
    split_ifs with hjk
    · subst hjk
      exact List.nodup_cons.mpr ⟨hj, hrest⟩
    · refine List.nodup_cons.mpr ⟨fun hmem => ?_, ih hrest⟩
      rcases mem_keys_insert.mp hmem with heq | hmem
      · exact hjk heq
      · exact hj hmem

theorem get?_eq_some_of_mem {m : List (κ × α)} {k : κ} {a : α} (h : (keys m).Nodup)
    (hmem : (k, a) ∈ m) : get? m k = some a := by
  have hkey : k ∈ keys m := List.mem_map_of_mem hmem
  obtain ⟨b, hb⟩ := Option.isSome_iff_exists.mp (get?_isSome_iff.mpr hkey)
  have heq := List.inj_on_of_nodup_map h hmem (mem_of_get?_eq_some hb) rfl
  rw [hb, (Prod.mk.inj heq).2]

end FineractReports.Assoc

namespace FineractReports.Presentation

open DecimalText

/-- Numbers added without error, and written rounded to the places asked for. -/
structure ExactDecimals (decimals : DecimalNumbers) where
  value : decimals.Number → ℚ
  value_zero : value decimals.zero = 0
  value_add : ∀ a b, value (decimals.add a b) = value a + value b
  written : ℚ → ℕ → String
  rounded_eq : ∀ a places, decimals.rounded a places = written (value a) places
  written_numeral : ∀ x places,
    Numeral (written x places).toList places (roundAway (x * 10 ^ places))

section Money

/-- What stands before the amount. -/
def moneyFront (symbol : Option String) (code : String) : List Char :=
  let shown := (symbol.filter fun symbol => Text.isBlank symbol = false).getD code
  (Text.replace (shown ++ " ") "$ " "$").toList

variable {front amount : List Char}

/-- A text without dollar signs and spaces is passed over. -/
theorem replaceChars_amount (h : ∀ c ∈ amount, c ≠ '$' ∧ c ≠ ' ') :
    Text.replaceChars ['$', ' '] ['$'] 0 amount = amount := by
  induction amount with
  | nil => rfl
  | cons c rest ih =>
    have hc : ¬ '$' = c := fun heq => (h c List.mem_cons_self).1 heq.symm
    rw [Text.replaceChars, if_neg (by simp [hc]), ih fun d hd => h d (List.mem_cons_of_mem _ hd)]

/-- No occurrence reaches into the amount. -/
theorem replaceChars_append_amount (h : ∀ c ∈ amount, c ≠ '$' ∧ c ≠ ' ') :
    Text.replaceChars ['$', ' '] ['$'] 0 (front ++ amount) =
        Text.replaceChars ['$', ' '] ['$'] 0 front ++ amount ∧
      (front ≠ [] → Text.replaceChars ['$', ' '] ['$'] 1 (front ++ amount) =
        Text.replaceChars ['$', ' '] ['$'] 1 front ++ amount) := by
  induction front with
  | nil => exact ⟨replaceChars_amount h, fun hne => absurd rfl hne⟩
  | cons c rest ih =>
    refine ⟨?_, fun _ => ih.1⟩
    rw [List.cons_append, Text.replaceChars, Text.replaceChars]
    cases rest with
    | nil =>
      have hshort : ['$', ' '].isPrefixOf (c :: ([] ++ amount)) = false := by
        cases amount with
        | nil => simp [List.isPrefixOf]
        | cons d more =>
          have hd : ¬ ' ' = d := fun heq => (h d List.mem_cons_self).2 heq.symm
          simp [List.isPrefixOf, hd]
      have hend : ['$', ' '].isPrefixOf [c] = false := by simp [List.isPrefixOf]
      rw [hshort, hend, if_neg Bool.false_ne_true, if_neg Bool.false_ne_true, List.nil_append,
        replaceChars_amount h]
      rfl
    | cons d more =>
      have hsame : ['$', ' '].isPrefixOf (c :: (d :: more ++ amount)) =
          ['$', ' '].isPrefixOf (c :: d :: more) := by
        simp [List.isPrefixOf]
      rw [hsame]
      split_ifs
      · rw [List.append_assoc]
        exact congrArg _ (ih.2 (List.cons_ne_nil _ _))
      · rw [List.cons_append]
        exact congrArg _ ih.1

/-- The front ends where no amount goes on. -/
theorem exists_replaceChars_space (front : List Char) :
    (∃ start c, Text.replaceChars ['$', ' '] ['$'] 0 (front ++ [' ']) = start ++ [c] ∧
        (c = '$' ∨ c = ' ')) ∧
      (front = [] ∨ ∃ start c, Text.replaceChars ['$', ' '] ['$'] 1 (front ++ [' ']) =
        start ++ [c] ∧ (c = '$' ∨ c = ' ')) := by
  induction front with
  | nil => exact ⟨⟨[], ' ', rfl, Or.inr rfl⟩, Or.inl rfl⟩
  | cons c rest ih =>
    refine ⟨?_, Or.inr ih.1⟩
    rw [List.cons_append, Text.replaceChars]
    split_ifs
    · rcases ih.2 with rfl | ⟨start, d, heq, hd⟩
      · exact ⟨[], '$', rfl, Or.inl rfl⟩
      · refine ⟨'$' :: start, d, ?_, hd⟩
        exact congrArg ('$' :: ·) heq
    · obtain ⟨start, d, heq, hd⟩ := ih.1
      exact ⟨c :: start, d, by rw [heq, List.cons_append], hd⟩

theorem exists_moneyFront (symbol : Option String) (code : String) :
    ∃ start c, moneyFront symbol code = start ++ [c] ∧ (c = '$' ∨ c = ' ') := by
  unfold moneyFront Text.replace
  simp only [String.toList_ofList, String.toList_append]
  exact (exists_replaceChars_space _).1

/-- Fronts and amounts are told apart in the whole text. -/
theorem moneyFront_append_injective {symbol symbol' : Option String} {code code' : String}
    {amount amount' : List Char} (h : ∀ c ∈ amount, c ≠ '$' ∧ c ≠ ' ')
    (h' : ∀ c ∈ amount', c ≠ '$' ∧ c ≠ ' ')
    (heq : moneyFront symbol code ++ amount = moneyFront symbol' code' ++ amount') :
    moneyFront symbol code = moneyFront symbol' code' ∧ amount = amount' := by
  have hlast {symbol : Option String} {code : String} {amount : List Char}
      (h : ∀ c ∈ amount, c ≠ '$' ∧ c ≠ ' ') :
      (moneyFront symbol code ++ amount).reverse.takeWhile (fun c => c ≠ '$' ∧ c ≠ ' ') =
        amount.reverse := by
    obtain ⟨start, c, hfront, hc⟩ := exists_moneyFront symbol code
    rw [hfront, List.reverse_append, List.reverse_append, List.takeWhile_append_of_pos]
    · rcases hc with rfl | rfl <;> simp
    · intro d hd
      exact decide_eq_true (h d (List.mem_reverse.mp hd))
  have hamount : amount = amount' := by
    apply List.reverse_injective
    rw [← hlast h, heq, hlast h']
  exact ⟨List.append_cancel_right (hamount ▸ heq), hamount⟩

variable {decimals : DecimalNumbers}

theorem ExactDecimals.amount_chars (exact : ExactDecimals decimals) (value : decimals.Number)
    (digits : ℕ) : ∀ c ∈ (decimals.rounded value digits).toList, c ≠ '$' ∧ c ≠ ' ' := by
  intro c hc
  rw [exact.rounded_eq] at hc
  rcases (exact.written_numeral _ _).mem hc with rfl | rfl | hdigit
  · decide
  · decide
  · refine ⟨?_, ?_⟩ <;> rintro rfl <;> exact absurd hdigit (by decide)

theorem toList_formatMoney (exact : ExactDecimals decimals) (value : decimals.Number)
    (digits : ℕ) (symbol : Option String) (code : String) :
    (formatMoney decimals value digits symbol code).toList =
      moneyFront symbol code ++ (decimals.rounded value digits).toList := by
  unfold formatMoney moneyFront Text.replace
  simp only [String.toList_ofList, String.toList_append]
  exact (replaceChars_append_amount (exact.amount_chars value digits)).1

end Money

section Rows

variable (decimals : DecimalNumbers)

/-- What a row adds to the total of its currency. -/
structure CountedRow where
  code : String
  digits : ℕ
  symbol : Option String
  amount : decimals.Number

def countedRow? (row : Json) : Option (CountedRow decimals) := do
  let text ← (row.get? "currency_code").bind Json.asStr?
  let digits ← (row.get? "currency_digits").bind asU64?
  let amount ← ((row.get? "amount_outstanding").bind Json.asStr?).bind decimals.parse
  if Text.trim text = "" then none
  else
    some ⟨Text.trim text, digits % 2 ^ 32,
      ((row.get? "currency_display_symbol").bind Json.asStr?).filter
        fun symbol => Text.isBlank symbol = false, amount⟩

def countedRows (rows : List Json) : List (CountedRow decimals) :=
  rows.filterMap (countedRow? decimals)

def rowsOf (rows : List Json) (code : String) : List (CountedRow decimals) :=
  (countedRows decimals rows).filter fun row => row.code = code

/-- The digits and the symbol are kept from the first row. -/
def addTo (entry : Option (ℕ × Option String × decimals.Number)) (row : CountedRow decimals) :
    ℕ × Option String × decimals.Number :=
  let (digits, symbol, total) := entry.getD (row.digits, row.symbol, decimals.zero)
  (digits, symbol, decimals.add total row.amount)

variable {decimals} {totals : Totals decimals} {rows : List Json} {code : String}

theorem addRow_eq (totals : Totals decimals) (row : Json) : addRow decimals totals row =
    match countedRow? decimals row with
    | none => totals
    | some counted =>
      Assoc.insert totals counted.code
        (addTo decimals (Assoc.get? totals counted.code) counted) := by
  unfold addRow countedRow?
  cases (row.get? "currency_code").bind Json.asStr? with
  | none => rfl
  | some text =>
    cases (row.get? "currency_digits").bind asU64? with
    | none => rfl
    | some digits =>
      cases ((row.get? "amount_outstanding").bind Json.asStr?).bind decimals.parse with
      | none => rfl
      | some amount =>
        by_cases hcode : Text.trim text = ""
        · simp [hcode]
        · simp [hcode, addTo]

/-- A row touches the total of its own currency only. -/
theorem get?_addRow (row : Json) : Assoc.get? (addRow decimals totals row) code =
    match countedRow? decimals row with
    | none => Assoc.get? totals code
    | some counted =>
      if counted.code = code then some (addTo decimals (Assoc.get? totals code) counted)
      else Assoc.get? totals code := by
  rw [addRow_eq]
  cases countedRow? decimals row with
  | none => rfl
  | some counted =>
    by_cases hcode : counted.code = code
    · subst hcode
      simp
    · simp [hcode, Assoc.get?_insert]

theorem get?_foldl_addRow (rows : List Json) :
    Assoc.get? (rows.foldl (addRow decimals) totals) code =
      (rowsOf decimals rows code).foldl (fun entry row => some (addTo decimals entry row))
        (Assoc.get? totals code) := by
  induction rows generalizing totals with
  | nil => rfl
  | cons row rest ih =>
    rw [List.foldl_cons, ih, get?_addRow, rowsOf, rowsOf, countedRows, countedRows]
    cases hrow : countedRow? decimals row with
    | none => rw [List.filterMap_cons_none hrow]
    | some counted =>
      rw [List.filterMap_cons_some hrow, List.filter_cons]
      by_cases hcode : counted.code = code <;> simp [hcode]

theorem foldl_addTo (rows : List (CountedRow decimals)) (digits : ℕ) (symbol : Option String)
    (total : decimals.Number) :
    rows.foldl (fun entry row => some (addTo decimals entry row)) (some (digits, symbol, total)) =
      some (digits, symbol, rows.foldl (fun total row => decimals.add total row.amount) total) := by
  induction rows generalizing total with
  | nil => rfl
  | cons row rest ih =>
    rw [List.foldl_cons, List.foldl_cons]
    exact ih _

theorem value_foldl_add (exact : ExactDecimals decimals) (rows : List (CountedRow decimals))
    (total : decimals.Number) :
    exact.value (rows.foldl (fun total row => decimals.add total row.amount) total) =
      exact.value total + (rows.map fun row => exact.value row.amount).sum := by
  induction rows generalizing total with
  | nil => simp
  | cons row rest ih =>
    rw [List.foldl_cons, ih, exact.value_add, List.map_cons, List.sum_cons, add_assoc]

theorem nodup_keys_foldl_addRow (h : (Assoc.keys totals).Nodup) :
    (Assoc.keys (rows.foldl (addRow decimals) totals)).Nodup := by
  induction rows generalizing totals with
  | nil => exact h
  | cons row rest ih =>
    rw [List.foldl_cons]
    apply ih
    rw [addRow_eq]
    cases countedRow? decimals row with
    | none => exact h
    | some counted => exact Assoc.nodup_keys_insert h

/-- The card of a currency: its first row gives the digits and the symbol, and the total is
the sum of its amounts. -/
def IsOutstandingCard (exact : ExactDecimals decimals) (rows : List Json) (code : String)
    (card : ResponseCard) : Prop :=
  ∃ first rest total, rowsOf decimals rows code = first :: rest ∧
    exact.value total = ((rowsOf decimals rows code).map fun row => exact.value row.amount).sum ∧
    card = ⟨"Outstanding (" ++ code ++ ")",
      formatMoney decimals total first.digits first.symbol code, none⟩

/-- The row count, then a card for each currency that has a row to count. -/
def ListsOutstanding (exact : ExactDecimals decimals) (rows : List Json)
    (cards : List ResponseCard) : Prop :=
  ∃ codes outstanding, codes.Pairwise (· < ·) ∧
    (∀ code, code ∈ codes ↔ rowsOf decimals rows code ≠ []) ∧
    cards = ⟨"Rows", toString rows.length, none⟩ :: outstanding ∧
    List.Forall₂ (IsOutstandingCard exact rows) codes outstanding

/-- Rows of one currency have its digits and write its symbol alike. -/
def CurrenciesAgree (decimals : DecimalNumbers) (rows : List Json) : Prop :=
  ∀ row ∈ countedRows decimals rows, ∀ other ∈ countedRows decimals rows,
    row.code = other.code → row.digits = other.digits ∧
      moneyFront row.symbol row.code = moneyFront other.symbol other.code

variable {exact : ExactDecimals decimals}

theorem get?_totals {first : CountedRow decimals} {rest : List (CountedRow decimals)}
    (hrows : rowsOf decimals rows code = first :: rest) :
    Assoc.get? (rows.foldl (addRow decimals) []) code =
      some (first.digits, first.symbol,
        (first :: rest).foldl (fun total row => decimals.add total row.amount) decimals.zero) := by
  rw [get?_foldl_addRow, hrows, List.foldl_cons, List.foldl_cons]
  exact foldl_addTo rest _ _ _

theorem mem_keys_totals : code ∈ Assoc.keys (rows.foldl (addRow decimals) []) ↔
    rowsOf decimals rows code ≠ [] := by
  rw [← Assoc.get?_isSome_iff]
  cases hrows : rowsOf decimals rows code with
  | nil =>
    rw [get?_foldl_addRow, hrows]
    simp
  | cons first rest =>
    rw [get?_totals hrows]
    simp

/-- The entry of a currency is its card. -/
theorem isOutstandingCard_of_mem (exact : ExactDecimals decimals)
    {entry : String × (ℕ × Option String × decimals.Number)}
    (h : entry ∈ rows.foldl (addRow decimals) []) :
    IsOutstandingCard exact rows entry.1 ⟨"Outstanding (" ++ entry.1 ++ ")",
      formatMoney decimals entry.2.2.2 entry.2.1 entry.2.2.1 entry.1, none⟩ := by
  have hkeys : (Assoc.keys (rows.foldl (addRow decimals) [])).Nodup :=
    nodup_keys_foldl_addRow List.nodup_nil
  have hget := Assoc.get?_eq_some_of_mem hkeys h
  cases hrows : rowsOf decimals rows entry.1 with
  | nil => exact absurd hrows (mem_keys_totals.mp (List.mem_map_of_mem h))
  | cons first rest =>
    have hentry := Option.some.inj (hget.symm.trans (get?_totals hrows))
    refine ⟨first, rest, _, hrows, ?_, by rw [hentry]⟩
    rw [value_foldl_add, exact.value_zero, zero_add, hrows]

theorem responseCards_listsOutstanding (exact : ExactDecimals decimals) (rows : List Json) :
    ListsOutstanding exact rows (responseCards decimals rows true) := by
  have hperm := List.mergeSort_perm (rows.foldl (addRow decimals) [])
    fun a b => decide (a.1 ≤ b.1)
  have hsorted := @List.pairwise_mergeSort (String × (ℕ × Option String × decimals.Number))
    (fun a b => decide (a.1 ≤ b.1))
    (fun a b c hab hbc =>
      decide_eq_true (String.le_trans (of_decide_eq_true hab) (of_decide_eq_true hbc)))
    (fun a b => by simp [String.le_total]) (rows.foldl (addRow decimals) [])
  have hdistinct : (Assoc.keys ((rows.foldl (addRow decimals) []).mergeSort
      fun a b => decide (a.1 ≤ b.1))).Nodup :=
    (hperm.map Prod.fst).nodup_iff.mpr (nodup_keys_foldl_addRow List.nodup_nil)
  refine ⟨_, _, ?_, fun code => ?_, rfl, List.forall₂_map_left_iff.mpr
    (List.forall₂_map_right_iff.mpr (List.forall₂_same.mpr fun entry hentry =>
      isOutstandingCard_of_mem exact (hperm.subset hentry)))⟩
  · rw [List.pairwise_map]
    apply hsorted.imp₂ _ (List.pairwise_map.mp hdistinct)
    intro a b hle hne
    exact String.not_le.mp fun hge => hne (String.le_antisymm (of_decide_eq_true hle) hge)
  · rw [(hperm.map Prod.fst).mem_iff]
    exact mem_keys_totals

/-- The sum decides the text of a total. -/
theorem formatMoney_congr (exact : ExactDecimals decimals) {a b : decimals.Number}
    (h : exact.value a = exact.value b) {digits digits' : ℕ} {symbol symbol' : Option String}
    (hdigits : digits = digits') (hfront : moneyFront symbol code = moneyFront symbol' code) :
    formatMoney decimals a digits symbol code = formatMoney decimals b digits' symbol' code := by
  apply String.toList_inj.mp
  rw [toList_formatMoney exact, toList_formatMoney exact, hfront, exact.rounded_eq,
    exact.rounded_eq, h, hdigits]

theorem IsOutstandingCard.congr {others : List Json} {card card' : ResponseCard}
    (hagree : CurrenciesAgree decimals rows) (hperm : others.Perm rows)
    (h : IsOutstandingCard exact others code card) (h' : IsOutstandingCard exact rows code card') :
    card = card' := by
  obtain ⟨first, rest, total, hrows, htotal, rfl⟩ := h
  obtain ⟨first', rest', total', hrows', htotal', rfl⟩ := h'
  have hsame : (rowsOf decimals others code).Perm (rowsOf decimals rows code) :=
    (hperm.filterMap _).filter _
  have hvalue : exact.value total = exact.value total' := by
    rw [htotal, htotal']
    exact (hsame.map _).sum_eq
  have hcounted {row : CountedRow decimals} (hrow : row ∈ rowsOf decimals rows code) :
      row ∈ countedRows decimals rows ∧ row.code = code := by
    simpa [rowsOf] using hrow
  obtain ⟨hfirst, hcode⟩ := hcounted (hsame.subset (hrows ▸ List.mem_cons_self))
  obtain ⟨hfirst', hcode'⟩ := hcounted (hrows' ▸ List.mem_cons_self)
  obtain ⟨hdigits, hfront⟩ := hagree first hfirst first' hfirst' (hcode.trans hcode'.symm)
  rw [hcode, hcode'] at hfront
  rw [formatMoney_congr exact hvalue hdigits hfront]

theorem rowsOf_ne_nil_of_perm {others : List Json} (hperm : others.Perm rows) :
    rowsOf decimals others code ≠ [] ↔ rowsOf decimals rows code ≠ [] := by
  have hsame : (rowsOf decimals others code).Perm (rowsOf decimals rows code) :=
    (hperm.filterMap _).filter _
  rw [ne_eq, ne_eq, not_iff_not]
  exact ⟨fun h => (h ▸ hsame).symm.eq_nil, fun h => (h ▸ hsame).eq_nil⟩

theorem codes_unique {codes others : List String} (hcodes : codes.Pairwise (· < ·))
    (hothers : others.Pairwise (· < ·)) (h : ∀ code, code ∈ codes ↔ code ∈ others) :
    codes = others := by
  have hnodup {codes : List String} (hcodes : codes.Pairwise (· < ·)) : codes.Nodup := by
    apply hcodes.imp
    rintro a b hlt rfl
    exact String.lt_irrefl a hlt
  apply List.Perm.eq_of_pairwise _ hcodes hothers
    ((List.perm_ext_iff_of_nodup (hnodup hcodes) (hnodup hothers)).mpr h)
  intro a b _ _ hab hba
  exact absurd hba (String.lt_asymm hab)

/-- Where the currencies agree, the order of the rows does not matter. -/
theorem ListsOutstanding.unique {others : List Json} {cards cards' : List ResponseCard}
    (hagree : CurrenciesAgree decimals rows) (hperm : others.Perm rows)
    (h : ListsOutstanding exact others cards) (h' : ListsOutstanding exact rows cards') :
    cards = cards' := by
  obtain ⟨codes, outstanding, hcodes, hmem, rfl, heach⟩ := h
  obtain ⟨codes', outstanding', hcodes', hmem', rfl, heach'⟩ := h'
  obtain rfl : codes = codes' := by
    apply codes_unique hcodes hcodes'
    intro code
    rw [hmem, hmem', rowsOf_ne_nil_of_perm hperm]
  have hsame : outstanding = outstanding' := by
    clear hcodes hmem hcodes' hmem'
    induction heach generalizing outstanding' with
    | nil =>
      cases heach'
      rfl
    | cons hcard _ ih =>
      cases heach' with
      | cons hcard' hrest' => rw [hcard.congr hagree hperm hcard', ih _ hrest']
  rw [hsame, hperm.length_eq]

theorem exists_common_of_forall₂ {α β : Type*} {R S : α → β → Prop} {as : List α}
    {bs : List β} (hR : List.Forall₂ R as bs) (hS : List.Forall₂ S as bs) {a : α} (ha : a ∈ as) :
    ∃ b, R a b ∧ S a b := by
  induction hR with
  | nil => cases ha
  | cons hab _ ih =>
    cases hS with
    | cons hab' hrest =>
      rcases List.mem_cons.mp ha with rfl | ha
      · exact ⟨_, hab, hab'⟩
      · exact ih hrest ha

/-- A row that comes first gives its currency the digits and the symbol. -/
theorem rowsOf_cons {row : Json} {counted : CountedRow decimals}
    (hrow : countedRow? decimals row = some counted) :
    rowsOf decimals (row :: rows) counted.code = counted :: rowsOf decimals rows counted.code := by
  rw [rowsOf, countedRows, List.filterMap_cons_some hrow, List.filter_cons_of_pos (by simp)]
  rfl

/-- Either of two rows of a currency can come first. -/
theorem currenciesAgree_of_unique (exact : ExactDecimals decimals)
    (h : ∀ others : List Json, others.Perm rows →
      responseCards decimals others true = responseCards decimals rows true) :
    CurrenciesAgree decimals rows := by
  intro counted hcounted other hother hcode
  obtain ⟨row, hrow, hread⟩ := List.mem_filterMap.mp hcounted
  obtain ⟨row', hrow', hread'⟩ := List.mem_filterMap.mp hother
  have hperm := (List.perm_cons_erase hrow).symm
  have hperm' := (List.perm_cons_erase hrow').symm
  obtain ⟨codes, outstanding, hcodes, hmem, hcards, heach⟩ :=
    responseCards_listsOutstanding exact (row :: rows.erase row)
  obtain ⟨codes', outstanding', hcodes', hmem', hcards', heach'⟩ :=
    responseCards_listsOutstanding exact (row' :: rows.erase row')
  obtain rfl : codes = codes' := by
    apply codes_unique hcodes hcodes'
    intro code
    rw [hmem, hmem', rowsOf_ne_nil_of_perm hperm, rowsOf_ne_nil_of_perm hperm']
  obtain rfl : outstanding = outstanding' := by
    rw [h _ hperm, ← h _ hperm', hcards'] at hcards
    exact (List.cons.inj hcards).2.symm
  have hin : counted.code ∈ codes := (hmem _).mpr (by simp [rowsOf_cons hread])
  obtain ⟨card, ⟨first, rest, total, hrows, -, hcard⟩, first', rest', total', hrows', -, hcard'⟩ :=
    exists_common_of_forall₂ heach heach' hin
  obtain ⟨rfl, -⟩ := List.cons.inj ((rowsOf_cons hread).symm.trans hrows)
  rw [hcode] at hrows'
  obtain ⟨rfl, -⟩ := List.cons.inj ((rowsOf_cons hread').symm.trans hrows')
  have htext := congrArg String.toList (congrArg ResponseCard.value (hcard.symm.trans hcard'))
  simp only [toList_formatMoney exact] at htext
  obtain ⟨hfront, hamount⟩ :=
    moneyFront_append_injective (exact.amount_chars _ _) (exact.amount_chars _ _) htext
  refine ⟨?_, hcode ▸ hfront⟩
  rw [exact.rounded_eq, exact.rounded_eq] at hamount
  have hother := exact.written_numeral (exact.value total') other.digits
  rw [← hamount] at hother
  exact (exact.written_numeral _ _).places_unique hother

end Rows

/-- The amount is written with its digits and is the nearest one, midpoints away from zero. -/
def ShowsRounded (text : String) (front : List Char) (value : ℚ) (digits : ℕ) : Prop :=
  ∃ amount m, text.toList = front ++ amount ∧ Numeral amount digits m ∧
    IsNearestAway (value * 10 ^ digits) m

theorem responseCards_totals (decimals : DecimalNumbers) (exact : ExactDecimals decimals)
    (rows : List Json) :
    responseCards decimals rows false = [⟨"Rows", toString rows.length, none⟩] ∧
      ListsOutstanding exact rows (responseCards decimals rows true) ∧
      ((∀ others : List Json, others.Perm rows →
          responseCards decimals others true = responseCards decimals rows true) ↔
        CurrenciesAgree decimals rows) ∧
      ∀ value digits symbol code, ShowsRounded (formatMoney decimals value digits symbol code)
        (moneyFront symbol code) (exact.value value) digits := by
  refine ⟨rfl, responseCards_listsOutstanding exact rows,
    ⟨currenciesAgree_of_unique exact, fun hagree others hperm => ?_⟩, ?_⟩
  · exact ListsOutstanding.unique hagree hperm (responseCards_listsOutstanding exact others)
      (responseCards_listsOutstanding exact rows)
  · intro value digits symbol code
    refine ⟨_, _, toList_formatMoney exact value digits symbol code, ?_,
      roundAway_isNearestAway _⟩
    rw [exact.rounded_eq]
    exact exact.written_numeral _ _

namespace NameLookup

def usdRow (digits : ℕ) (amount : String) : Json :=
  .obj [("currency_code", .str "USD"), ("currency_digits", .int digits),
    ("amount_outstanding", .str amount)]

/-- The total of the same two rows is written with the digits of the one that comes first. -/
theorem usd_order_shows :
    [usdRow 2 "7", usdRow 0 "5"].Perm [usdRow 0 "5", usdRow 2 "7"] ∧
      responseCards wholeNumbers [usdRow 0 "5", usdRow 2 "7"] true =
        [⟨"Rows", "2", none⟩, ⟨"Outstanding (USD)", "USD 12", none⟩] ∧
      responseCards wholeNumbers [usdRow 2 "7", usdRow 0 "5"] true =
        [⟨"Rows", "2", none⟩, ⟨"Outstanding (USD)", "USD 12.00", none⟩] :=
  ⟨List.Perm.swap _ _ _, by decide +kernel, by decide +kernel⟩

/-- An unsigned numeral with or without a point. -/
def readFraction (text : String) : Option ℚ :=
  let whole := text.toList.takeWhile Char.isDigit
  match text.toList.dropWhile Char.isDigit with
  | [] => (Text.parseDigits whole).map fun n => n
  | '.' :: fraction =>
    if whole = [] then none
    else (Text.parseDigits (whole ++ fraction)).map fun n => n / 10 ^ fraction.length
  | _ => none

def decimalFractions : DecimalNumbers where
  Number := ℚ
  parse := readFraction
  zero := 0
  add := (· + ·)
  rounded := fun x places => String.ofList (numeral (roundAway (x * 10 ^ places)) places)

def exactFractions : ExactDecimals decimalFractions where
  value := id
  value_zero := rfl
  value_add := fun _ _ => rfl
  written := decimalFractions.rounded
  rounded_eq := fun _ _ => rfl
  written_numeral := fun _ _ => String.toList_ofList ▸ numeral_isNumeral _ _

theorem usd_totals_agree : ∀ others : List Json, others.Perm [usdRow 2 "5.50", usdRow 2 "7.25"] →
    responseCards decimalFractions others true =
      responseCards decimalFractions [usdRow 2 "5.50", usdRow 2 "7.25"] true := by
  apply (responseCards_totals decimalFractions exactFractions _).2.2.1.mpr
  have hrows : countedRows decimalFractions [usdRow 2 "5.50", usdRow 2 "7.25"] =
      [⟨"USD", 2, none, ((550 : ℕ) / 10 ^ 2 : ℚ)⟩,
        ⟨"USD", 2, none, ((725 : ℕ) / 10 ^ 2 : ℚ)⟩] := rfl
  intro row hrow other hother _
  rw [hrows] at hrow hother
  simp only [List.mem_cons, List.not_mem_nil, or_false] at hrow hother
  rcases hrow with rfl | rfl <;> rcases hother with rfl | rfl <;> exact ⟨rfl, rfl⟩

end NameLookup

end FineractReports.Presentation
