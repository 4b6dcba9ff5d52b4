import Mathlib.Data.List.Chain
import Mathlib.Tactic

/-!
# Pieces of a list

A list is cut behind every terminator, and consecutive pieces are gathered again into groups.
Gathering is a loop with a state: it appends item after item to the current group and closes
the group where a test says so.
-/

namespace FineractReports

section Split

variable {α : Type*} (p : α → Bool)

/-- `split_inclusive`: every piece but the last ends with a terminator, and holds no other. -/
def splitInclusive : List α → List (List α)
  | [] => []
  | c :: rest =>
    if p c then [c] :: splitInclusive rest
    else match splitInclusive rest with
      | [] => [[c]]
      | piece :: pieces => (c :: piece) :: pieces

/-- The pieces of some list cut behind its terminators. -/
inductive CutBehind : List (List α) → Prop
  | nil : CutBehind []
  | rest {piece : List α} (hne : piece ≠ []) (hnone : ∀ c ∈ piece, p c = false) :
      CutBehind [piece]
  | piece {front : List α} {c : α} {pieces : List (List α)} (hnone : ∀ d ∈ front, p d = false)
      (hc : p c = true) (hpieces : CutBehind pieces) : CutBehind ((front ++ [c]) :: pieces)

/-- Every list but the last ends with a terminator. -/
def EndedEarly (pieces : List (List α)) : Prop :=
  pieces.IsChain fun piece _ => ∀ c ∈ piece.getLast?, p c = true

variable {p} {pieces front back : List (List α)}

theorem flatten_splitInclusive (text : List α) : (splitInclusive p text).flatten = text := by
  induction text with
  | nil => rfl
  | cons c rest ih =>
    unfold splitInclusive
    by_cases hc : p c = true
    · rw [if_pos hc, List.flatten_cons, ih, List.singleton_append]
    · rw [if_neg hc]
      cases hrest : splitInclusive p rest with
      | nil =>
        rw [hrest] at ih
        rw [← ih]
        rfl
      | cons piece pieces =>
        rw [hrest] at ih
        rw [← ih]
        rfl

theorem cutBehind_splitInclusive (text : List α) : CutBehind p (splitInclusive p text) := by
  induction text with
  | nil => exact .nil
  | cons c rest ih =>
    unfold splitInclusive
    by_cases hc : p c = true
    · rw [if_pos hc]
      exact @CutBehind.piece _ _ [] c _ (by simp) hc ih
    · rw [if_neg hc]
      have hfalse : p c = false := eq_false_of_ne_true hc
      cases hrest : splitInclusive p rest with
      | nil => exact .rest (List.cons_ne_nil c []) (by simpa using hfalse)
      | cons piece pieces =>
        rw [hrest] at ih
        cases ih with
        | rest hne hnone =>
          exact .rest (List.cons_ne_nil c piece) (List.forall_mem_cons.mpr ⟨hfalse, hnone⟩)
        | @piece front last _ hnone hlast hpieces =>
          exact @CutBehind.piece _ _ (c :: front) last _
            (List.forall_mem_cons.mpr ⟨hfalse, hnone⟩) hlast hpieces

theorem splitInclusive_rest {text : List α} (hne : text ≠ []) (hnone : ∀ c ∈ text, p c = false) :
    splitInclusive p text = [text] := by
  induction text with
  | nil => exact absurd rfl hne
  | cons c rest ih =>
    obtain ⟨hc, hrest⟩ := List.forall_mem_cons.mp hnone
    unfold splitInclusive
    rw [if_neg (by simp [hc])]
    cases rest with
    | nil => rfl
    | cons d rest => rw [ih (List.cons_ne_nil d rest) hrest]

theorem splitInclusive_piece {front : List α} {c : α} (hnone : ∀ d ∈ front, p d = false)
    (hc : p c = true) (text : List α) :
    splitInclusive p (front ++ [c] ++ text) = (front ++ [c]) :: splitInclusive p text := by
  induction front with
  | nil =>
    rw [List.nil_append, List.singleton_append, splitInclusive, if_pos hc]
  | cons d front ih =>
    obtain ⟨hd, hfront⟩ := List.forall_mem_cons.mp hnone
    rw [List.cons_append, List.cons_append, splitInclusive, if_neg (by simp [hd]), ih hfront]

/-- Cut pieces are what cutting their concatenation gives. -/
theorem CutBehind.splitInclusive (h : CutBehind p pieces) :
    splitInclusive p pieces.flatten = pieces := by
  induction h with
  | nil => rfl
  | rest hne hnone => rw [List.flatten_singleton, splitInclusive_rest hne hnone]
  | piece hnone hc hpieces ih => rw [List.flatten_cons, splitInclusive_piece hnone hc, ih]

theorem CutBehind.append (h : CutBehind p (front ++ back)) :
    CutBehind p front ∧ CutBehind p back := by
  induction front with
  | nil => exact ⟨.nil, h⟩
  | cons first front ih =>
    rw [List.cons_append] at h
    generalize hrest : front ++ back = rest at h
    cases h with
    | rest hne hnone =>
      obtain ⟨rfl, rfl⟩ := List.append_eq_nil_iff.mp hrest
      exact ⟨.rest hne hnone, .nil⟩
    | piece hnone hc hpieces =>
      subst hrest
      exact ⟨.piece hnone hc (ih hpieces).1, (ih hpieces).2⟩

theorem CutBehind.ne_nil (h : CutBehind p pieces) : [] ∉ pieces := by
  induction h with
  | nil => exact List.not_mem_nil
  | rest hne hnone => simpa using hne.symm
  | piece hnone hc hpieces ih => simpa using ih

theorem CutBehind.endedEarly (h : CutBehind p pieces) : EndedEarly p pieces := by
  induction h with
  | nil => exact .nil
  | rest hne hnone => exact .singleton _
  | @piece front c pieces hnone hc hpieces ih =>
    unfold EndedEarly
    rw [List.isChain_cons]
    refine ⟨fun _ _ => ?_, ih⟩
    simpa using hc

/-- A boundary between ended lists is behind a terminator. -/
theorem EndedEarly.boundary (h : EndedEarly p (front ++ back)) (hne : [] ∉ front)
    (hback : back ≠ []) : ∀ c ∈ front.flatten.getLast?, p c = true := by
  cases front using List.reverseRecOn with
  | nil => exact fun c hc => by simp at hc
  | append_singleton front last =>
    obtain ⟨-, -, hends⟩ := List.isChain_append.mp h
    obtain ⟨first, hfirst⟩ := Option.ne_none_iff_exists'.mp (mt List.head?_eq_none_iff.mp hback)
    have hlast : last ≠ [] := fun hnil => hne (by simp [hnil])
    intro c hc
    rw [List.flatten_concat, List.getLast?_append_of_ne_nil _ hlast] at hc
    exact hends last (by simp) first hfirst c hc

/-- Cutting pieces further keeps what they make up. -/
theorem flatten_flatMap_cut {cut : List α → List (List α)}
    (hcut : ∀ piece ∈ pieces, (cut piece).flatten = piece) :
    (pieces.flatMap cut).flatten = pieces.flatten := by
  induction pieces with
  | nil => rfl
  | cons piece rest ih =>
    obtain ⟨hpiece, hrest⟩ := List.forall_mem_cons.mp hcut
    rw [List.flatMap_cons, List.flatten_append, hpiece, ih hrest, List.flatten_cons]

/-- Cutting ended lists again keeps every boundary behind a terminator. -/
theorem EndedEarly.flatMap (h : EndedEarly p pieces) {cut : List α → List (List α)}
    (hcut : ∀ piece ∈ pieces, EndedEarly p (cut piece) ∧ [] ∉ cut piece ∧
      (cut piece).flatten = piece) (hne : [] ∉ pieces) : EndedEarly p (pieces.flatMap cut) := by
  induction pieces with
  | nil => exact .nil
  | cons piece rest ih =>
    obtain ⟨⟨hended, hpieces, hflat⟩, hrest⟩ := List.forall_mem_cons.mp hcut
    rw [List.flatMap_cons]
    refine List.isChain_append.mpr ⟨hended, ih h.tail hrest (fun hin => hne (by simp [hin])), ?_⟩
    intro last hlast first hfirst c hc
    cases rest with
    | nil => simp at hfirst
    | cons next rest =>
      have hpiece : ∀ c ∈ piece.getLast?, p c = true := (List.isChain_cons_cons.mp h).1
      obtain ⟨front, hfront⟩ := List.getLast?_eq_some_iff.mp hlast
      have hlastne : last ≠ [] := fun hnil => hpieces (List.mem_of_getLast? (hnil ▸ hlast))
      apply hpiece
      rw [← hflat, hfront, List.flatten_concat, List.getLast?_append_of_ne_nil _ hlastne]
      exact hc

/-- Groups of pieces are ended as the pieces are. -/
theorem EndedEarly.group {groups : List (List (List α))} (h : EndedEarly p groups.flatten)
    (hgroups : [] ∉ groups) (hpieces : [] ∉ groups.flatten) :
    EndedEarly p (groups.map List.flatten) := by
  induction groups with
  | nil => exact .nil
  | cons group rest ih =>
    rw [List.flatten_cons] at h hpieces
    rw [List.mem_cons, not_or] at hgroups
    rw [List.mem_append, not_or] at hpieces
    have hrest := ih (List.isChain_append.mp h).2.1 hgroups.2 hpieces.2
    rw [List.map_cons]
    refine List.isChain_cons.mpr ⟨fun next hnext => ?_, hrest⟩
    apply h.boundary hpieces.1
    cases rest with
    | nil => simp at hnext
    | cons second rest =>
      have hsecond : second ≠ [] := fun hnil => hgroups.2 (by simp [hnil])
      simp [hsecond]

theorem EndedEarly.mono {q : α → Bool} (h : EndedEarly p pieces)
    (hpq : ∀ c, p c = true → q c = true) : EndedEarly q pieces :=
  h.imp fun _ _ hends c hc => hpq c (hends c hc)

end Split

section Gather

variable {σ β : Type*} (next : σ → β → σ) (closes : σ → List β → β → Bool)

/-- Appends items to the current group and closes it behind an item that passes the test. -/
def gather (state : σ) (current : List β) : List β → List (List β)
  | [] => if current.isEmpty then [] else [current]
  | item :: rest =>
    if closes state current item then (current ++ [item]) :: gather (next state item) [] rest
    else gather (next state item) (current ++ [item]) rest

variable {next closes} {state : σ} {current items : List β}

theorem flatten_gather : (gather next closes state current items).flatten = current ++ items := by
  induction items generalizing state current with
  | nil => cases current <;> simp [gather]
  | cons item rest ih =>
    unfold gather
    split_ifs with hcloses
    · rw [List.flatten_cons, ih]
      simp
    · rw [ih]
      simp

theorem gather_ne_nil : [] ∉ gather next closes state current items := by
  induction items generalizing state current with
  | nil => cases current <;> simp [gather]
  | cons item rest ih =>
    unfold gather
    split_ifs with hcloses
    · simpa using ih
    · exact ih

/-- Groups of the first items, then the loop goes on with what is left of them. -/
theorem gather_append (before rest : List β) : ∃ left carried,
    gather next closes state current (before ++ rest) =
        left ++ gather next closes (before.foldl next state) carried rest ∧
      left.flatten ++ carried = current ++ before := by
  induction before generalizing state current with
  | nil => exact ⟨[], current, rfl, by simp⟩
  | cons item before ih =>
    rw [List.cons_append, gather, List.foldl_cons]
    split_ifs with hcloses
    · obtain ⟨left, carried, hgather, hflat⟩ := @ih (next state item) []
      refine ⟨(current ++ [item]) :: left, carried, by rw [hgather]; rfl, ?_⟩
      rw [List.flatten_cons, List.append_assoc, hflat]
      simp
    · obtain ⟨left, carried, hgather, hflat⟩ := @ih (next state item) (current ++ [item])
      exact ⟨left, carried, hgather, by rw [hflat]; simp⟩

/-- A group that is begun is the beginning of the next group. -/
theorem gather_begun (hcurrent : current ≠ []) : ∃ back right,
    gather next closes state current items = (current ++ back) :: right := by
  induction items generalizing state current with
  | nil => exact ⟨[], [], by simp [gather, hcurrent]⟩
  | cons item rest ih =>
    unfold gather
    split_ifs with hcloses
    · exact ⟨[item], _, rfl⟩
    · obtain ⟨back, right, hgather⟩ :=
        @ih (next state item) (current ++ [item]) (by simp)
      exact ⟨item :: back, right, by rw [hgather]; simp⟩

/-- Items that never close a group are all appended to the current one. -/
theorem gather_keeps {kept rest : List β}
    (hkept : ∀ front item back, kept = front ++ item :: back →
      closes (front.foldl next state) (current ++ front) item = false) :
    gather next closes state current (kept ++ rest) =
      gather next closes (kept.foldl next state) (current ++ kept) rest := by
  induction kept generalizing state current with
  | nil => simp
  | cons item kept ih =>
    have hfirst := hkept [] item kept rfl
    rw [List.append_nil] at hfirst
    rw [List.cons_append, gather, if_neg (by simpa using hfirst), ih]
    · simp
    · intro front other back hsplit
      rw [List.append_assoc]
      exact hkept (item :: front) other back (by rw [hsplit]; rfl)

end Gather

end FineractReports
