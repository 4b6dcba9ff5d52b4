import Mathlib.Tactic
import FineractReports.Library.Assoc

/-!
# JSON values

The values of `serde_json`. Numbers that are not integers keep their text;
objects are association lists with the members in insertion order.
-/

namespace FineractReports

inductive Json where
  | null
  | bool (value : Bool)
  | int (value : ℤ)
  | float (text : String)
  | str (value : String)
  | arr (items : List Json)
  | obj (members : List (String × Json))
deriving Inhabited

namespace Json

mutual

def decEq : (a b : Json) → Decidable (a = b)
  | null, null => isTrue rfl
  | bool a, bool b => decidable_of_iff (a = b) (by simp)
  | int a, int b => decidable_of_iff (a = b) (by simp)
  | float a, float b => decidable_of_iff (a = b) (by simp)
  | str a, str b => decidable_of_iff (a = b) (by simp)
  | arr as, arr bs =>
    match decEqItems as bs with
    | isTrue h => isTrue (by rw [h])
    | isFalse h => isFalse (by simpa using h)
  | obj as, obj bs =>
    match decEqMembers as bs with
    | isTrue h => isTrue (by rw [h])
    | isFalse h => isFalse (by simpa using h)
  | null, bool _ | null, int _ | null, float _ | null, str _ | null, arr _ | null, obj _
  | bool _, null | bool _, int _ | bool _, float _ | bool _, str _ | bool _, arr _ | bool _, obj _
  | int _, null | int _, bool _ | int _, float _ | int _, str _ | int _, arr _ | int _, obj _
  | float _, null | float _, bool _ | float _, int _ | float _, str _ | float _, arr _
  | float _, obj _
  | str _, null | str _, bool _ | str _, int _ | str _, float _ | str _, arr _ | str _, obj _
  | arr _, null | arr _, bool _ | arr _, int _ | arr _, float _ | arr _, str _ | arr _, obj _
  | obj _, null | obj _, bool _ | obj _, int _ | obj _, float _ | obj _, str _
  | obj _, arr _ => isFalse (by simp)

def decEqItems : (as bs : List Json) → Decidable (as = bs)
  | [], [] => isTrue rfl
  | [], _ :: _ => isFalse (by simp)
  | _ :: _, [] => isFalse (by simp)
  | a :: as, b :: bs =>
    match decEq a b, decEqItems as bs with
    | isTrue h, isTrue hs => isTrue (by rw [h, hs])
    | isFalse h, _ => isFalse (by simp [h])
    | _, isFalse hs => isFalse (by simp [hs])

def decEqMembers : (as bs : List (String × Json)) → Decidable (as = bs)
  | [], [] => isTrue rfl
  | [], _ :: _ => isFalse (by simp)
  | _ :: _, [] => isFalse (by simp)
  | (k, a) :: as, (j, b) :: bs =>
    match decEq a b, decEqMembers as bs with
    | isTrue h, isTrue hs =>
      if hk : k = j then isTrue (by rw [hk, h, hs]) else isFalse (by simp [hk])
    | isFalse h, _ => isFalse (by simp [h])
    | _, isFalse hs => isFalse (by simp [hs])

end

instance : DecidableEq Json := decEq

def isNull : Json → Bool
  | null => true
  | _ => false

/-- Member of an object; any other value has no members. -/
def get? : Json → String → Option Json
  | obj members, key => Assoc.get? members key
  | _, _ => none

def asStr? : Json → Option String
  | str value => some value
  | _ => none

def asArray? : Json → Option (List Json)
  | arr items => some items
  | _ => none

/-- Integers in the range of `i64`. -/
def asI64? : Json → Option ℤ
  | int value => if -2 ^ 63 ≤ value ∧ value < 2 ^ 63 then some value else none
  | _ => none

/-- Integers in the range of `u64`. -/
def asU64? : Json → Option UInt64
  | int value => if 0 ≤ value ∧ value < 2 ^ 64 then some (UInt64.ofNat value.toNat) else none
  | _ => none

/-- The name of a variant without data: a string, or the only key of an object that holds
`null`. -/
def variantName? : Json → Option String
  | str name => some name
  | obj [(name, null)] => some name
  | _ => none

/-- Sets a member of an object and leaves any other value as it is. -/
def insertMember : Json → String → Json → Json
  | obj members, key, value => obj (Assoc.insert members key value)
  | value, _, _ => value

/-- The `||` of two JSON objects: the right one's members win. -/
def concat : Json → Json → Json
  | obj left, obj right => obj (right.foldl (fun m e => Assoc.insert m e.1 e.2) left)
  | left, _ => left

mutual

/-- Drops the named members of every object, at every depth. -/
def redactFields (fields : List String) : Json → Json
  | arr items => arr (redactItems fields items)
  | obj members => obj (redactMembers fields members)
  | value => value

def redactItems (fields : List String) : List Json → List Json
  | [] => []
  | item :: rest => redactFields fields item :: redactItems fields rest

def redactMembers (fields : List String) : List (String × Json) → List (String × Json)
  | [] => []
  | (key, value) :: rest =>
    if key ∈ fields then redactMembers fields rest
    else (key, redactFields fields value) :: redactMembers fields rest

end

@[simp] theorem isNull_iff {v : Json} : v.isNull = true ↔ v = null := by
  cases v <;> simp [isNull]

@[simp] theorem get?_obj (members : List (String × Json)) (key : String) :
    (obj members).get? key = Assoc.get? members key := rfl

theorem asU64?_toNat (value : UInt64) : asU64? (int value.toNat) = some value := by
  have hlt := value.toNat_lt
  simp only [asU64?]
  rw [if_pos ⟨by omega, by omega⟩]
  simp

end Json

end FineractReports
