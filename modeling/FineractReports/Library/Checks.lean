import Mathlib.Tactic

/-!
# Sequences of checks

Validators are sequences of checks that stop at the first failure. A check is an
`Except ε Unit`; the lemmas say when a check, a sequence of checks and a check
made for every element of a list succeed.
-/

namespace FineractReports

variable {ε ε' γ : Type*} {α β : Type}

/-- Fails with `e` when `p` holds. -/
def failIf (p : Prop) [Decidable p] (e : ε) : Except ε Unit :=
  if p then .error e else .ok ()

/-- The check made for every element, in order. -/
def forEach (items : List γ) (check : γ → Except ε Unit) : Except ε Unit :=
  match items with
  | [] => .ok ()
  | item :: rest => check item >>= fun _ => forEach rest check

@[simp] theorem failIf_eq_ok {p : Prop} [Decidable p] {e : ε} :
    failIf p e = .ok () ↔ ¬ p := by
  unfold failIf
  split_ifs with h <;> simp [h]

@[simp] theorem bind_eq_ok_iff {x : Except ε α} {f : α → Except ε β} {b : β} :
    (x >>= f) = .ok b ↔ ∃ a, x = .ok a ∧ f a = .ok b := by
  cases x with
  | error e => simp [bind, Except.bind]
  | ok a => simp [bind, Except.bind]

@[simp] theorem exists_unit_iff {p : Unit → Prop} : (∃ u, p u) ↔ p () :=
  ⟨fun ⟨(), h⟩ => h, fun h => ⟨(), h⟩⟩

@[simp] theorem pure_eq_ok {a b : α} : (pure a : Except ε α) = .ok b ↔ a = b := by
  simp [pure, Except.pure]

@[simp] theorem map_eq_ok_iff {x : Except ε α} {f : α → β} {b : β} :
    x.map f = .ok b ↔ ∃ a, x = .ok a ∧ f a = b := by
  cases x <;> simp [Except.map]

@[simp] theorem forEach_eq_ok {items : List γ} {check : γ → Except ε Unit} :
    forEach items check = .ok () ↔ ∀ item ∈ items, check item = .ok () := by
  induction items with
  | nil => simp [forEach]
  | cons item rest ih => simp [forEach, ih]

/-- The check made for every element, in order, with the elements before it. -/
def forEachAfter (before : List γ) (items : List γ) (check : List γ → γ → Except ε Unit) :
    Except ε Unit :=
  match items with
  | [] => .ok ()
  | item :: rest => check before item >>= fun _ => forEachAfter (before ++ [item]) rest check

@[simp] theorem forEachAfter_nil {before : List γ} {check : List γ → γ → Except ε Unit} :
    forEachAfter before [] check = .ok () := rfl

theorem forEachAfter_cons {before rest : List γ} {item : γ}
    {check : List γ → γ → Except ε Unit} :
    forEachAfter before (item :: rest) check = .ok () ↔
      check before item = .ok () ∧ forEachAfter (before ++ [item]) rest check = .ok () := by
  simp [forEachAfter]

/-- Every element passed its check after some of the elements before it. -/
theorem forEachAfter_mem {items before : List γ} {check : List γ → γ → Except ε Unit}
    (h : forEachAfter before items check = .ok ()) {item : γ} (hmem : item ∈ items) :
    ∃ seen, check seen item = .ok () := by
  induction items generalizing before with
  | nil => simp at hmem
  | cons head rest ih =>
    obtain ⟨hhead, hrest⟩ := forEachAfter_cons.mp h
    rcases List.mem_cons.mp hmem with rfl | hin
    · exact ⟨before, hhead⟩
    · exact ih hrest hin

/-- Checks that refuse a key seen before leave no key twice. -/
theorem forEachAfter_nodup {κ : Type*} {items before : List γ}
    {check : List γ → γ → Except ε Unit} {key : γ → κ}
    (hcheck : ∀ before item, check before item = .ok () → key item ∉ before.map key)
    (h : forEachAfter before items check = .ok ()) (hbefore : (before.map key).Nodup) :
    ((before ++ items).map key).Nodup := by
  induction items generalizing before with
  | nil => simpa using hbefore
  | cons head rest ih =>
    obtain ⟨hhead, hrest⟩ := forEachAfter_cons.mp h
    have hfresh := hcheck before head hhead
    have hnext : ((before ++ [head]).map key).Nodup := by
      rw [List.map_append, List.map_singleton]
      exact hbefore.append (List.nodup_singleton _) (by simpa using hfresh)
    have := ih hrest hnext
    rwa [List.append_assoc] at this

/-- The check made on an optional value when there is one. -/
def forSome (a : Option γ) (check : γ → Except ε Unit) : Except ε Unit :=
  match a with
  | some a => check a
  | none => .ok ()

@[simp] theorem forSome_eq_ok {a : Option γ} {check : γ → Except ε Unit} :
    forSome a check = .ok () ↔ ∀ b, a = some b → check b = .ok () := by
  cases a <;> simp [forSome]

/-- Reads an optional value or fails. -/
def okOr (a : Option α) (e : ε) : Except ε α :=
  match a with
  | some a => .ok a
  | none => .error e

@[simp] theorem okOr_eq_ok {a : Option α} {e : ε} {b : α} :
    okOr a e = .ok b ↔ a = some b := by
  cases a <;> simp [okOr]

@[simp] theorem okOr_eq_error {a : Option α} {e e' : ε} :
    okOr a e = .error e' ↔ a = none ∧ e = e' := by
  cases a <;> simp [okOr, eq_comm]

/-- Replaces the error of a failed computation. -/
def mapError (f : ε → ε') : Except ε α → Except ε' α
  | .ok a => .ok a
  | .error e => .error (f e)

@[simp] theorem mapError_eq_ok {f : ε → ε'} {x : Except ε α} {a : α} :
    mapError f x = .ok a ↔ x = .ok a := by
  cases x <;> simp [mapError]

/-- The results of every element, in order, as one list. -/
def collectAll (items : List γ) (results : γ → Except ε (List α)) : Except ε (List α) :=
  match items with
  | [] => .ok []
  | item :: rest => do
    let first ← results item
    let others ← collectAll rest results
    pure (first ++ others)

theorem collectAll_cons {item : γ} {rest : List γ} {results : γ → Except ε (List α)}
    {out : List α} : collectAll (item :: rest) results = .ok out ↔
      ∃ first others, results item = .ok first ∧ collectAll rest results = .ok others ∧
        out = first ++ others := by
  simp only [collectAll, bind_eq_ok_iff, pure_eq_ok]
  constructor
  · rintro ⟨first, hfirst, others, hothers, rfl⟩
    exact ⟨first, others, hfirst, hothers, rfl⟩
  · rintro ⟨first, others, hfirst, hothers, rfl⟩
    exact ⟨first, hfirst, others, hothers, rfl⟩

/-- The results of an element are among the collected ones. -/
theorem mem_collectAll {items : List γ} {results : γ → Except ε (List α)} {out : List α}
    (h : collectAll items results = .ok out) {item : γ} (hmem : item ∈ items) :
    ∃ found, results item = .ok found ∧ ∀ value ∈ found, value ∈ out := by
  induction items generalizing out with
  | nil => simp at hmem
  | cons head rest ih =>
    obtain ⟨first, others, hfirst, hothers, rfl⟩ := collectAll_cons.mp h
    rcases List.mem_cons.mp hmem with rfl | hin
    · exact ⟨first, hfirst, fun value hvalue => List.mem_append_left _ hvalue⟩
    · obtain ⟨found, hfound, hall⟩ := ih hothers hin
      exact ⟨found, hfound, fun value hvalue => List.mem_append_right _ (hall value hvalue)⟩

/-- The results of an element stand together among the collected ones. -/
theorem collectAll_infix {items : List γ} {results : γ → Except ε (List α)} {out : List α}
    (h : collectAll items results = .ok out) {item : γ} (hmem : item ∈ items) :
    ∃ found, results item = .ok found ∧ found <:+: out := by
  induction items generalizing out with
  | nil => simp at hmem
  | cons head rest ih =>
    obtain ⟨first, others, hfirst, hothers, rfl⟩ := collectAll_cons.mp h
    rcases List.mem_cons.mp hmem with rfl | hin
    · exact ⟨first, hfirst, (List.prefix_append first others).isInfix⟩
    · obtain ⟨found, hfound, hwithin⟩ := ih hothers hin
      exact ⟨found, hfound, hwithin.trans (List.suffix_append first others).isInfix⟩

/-- A list is collected with only good values when each element has only good results. -/
theorem collectAll_forall_iff {items : List γ} {results : γ → Except ε (List α)} {P : α → Prop} :
    (∃ out, collectAll items results = .ok out ∧ ∀ value ∈ out, P value) ↔
      ∀ item ∈ items, ∃ out, results item = .ok out ∧ ∀ value ∈ out, P value := by
  induction items with
  | nil => simp [collectAll]
  | cons item rest ih =>
    rw [List.forall_mem_cons, ← ih]
    constructor
    · rintro ⟨out, hout, hall⟩
      obtain ⟨first, others, hfirst, hothers, rfl⟩ := collectAll_cons.mp hout
      rw [List.forall_mem_append] at hall
      exact ⟨⟨first, hfirst, hall.1⟩, others, hothers, hall.2⟩
    · rintro ⟨⟨first, hfirst, hgood⟩, others, hothers, hrest⟩
      refine ⟨first ++ others, collectAll_cons.mpr ⟨first, others, hfirst, hothers, rfl⟩, ?_⟩
      exact List.forall_mem_append.mpr ⟨hgood, hrest⟩

theorem collectAll_congr {items : List γ} {f g : γ → Except ε (List α)}
    (h : ∀ item ∈ items, f item = g item) : collectAll items f = collectAll items g := by
  induction items with
  | nil => rfl
  | cons item rest ih =>
    rw [collectAll, collectAll, h item List.mem_cons_self,
      ih fun other hother => h other (List.mem_cons_of_mem _ hother)]

/-- The results of one element for each: their number, and each one in its place. -/
theorem collectAll_single {items : List γ} {result : γ → Except ε α} {out : List α}
    (h : collectAll items (fun item => (result item).map fun value => [value]) = .ok out) :
    out.length = items.length ∧ ∀ (index : ℕ) (item : γ), items[index]? = some item →
      ∃ value, result item = .ok value ∧ out[index]? = some value := by
  induction items generalizing out with
  | nil =>
    cases h
    simp
  | cons item rest ih =>
    obtain ⟨first, others, hfirst, hothers, rfl⟩ := collectAll_cons.mp h
    obtain ⟨hlength, heach⟩ := ih hothers
    cases hresult : result item with
    | error e =>
      rw [hresult] at hfirst
      cases hfirst
    | ok value =>
      rw [hresult] at hfirst
      obtain rfl : [value] = first := Except.ok.inj hfirst
      refine ⟨by simp [hlength], fun index found hfound => ?_⟩
      cases index with
      | zero =>
        obtain rfl : item = found := by simpa using hfound
        exact ⟨value, hresult, rfl⟩
      | succ index =>
        obtain ⟨other, hother, hout⟩ := heach index found (by simpa using hfound)
        exact ⟨other, hother, by simpa using hout⟩

end FineractReports
