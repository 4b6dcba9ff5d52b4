import Mathlib.Data.List.Nodup
import Mathlib.Logic.Equiv.Defs

/-!
# Text formats

A way to write the values of a type so that they can be read again. An enumeration is
written by the names of its values.
-/

namespace FineractReports

structure TextFormat (α : Type*) where
  write : α → String
  read : String → Option α
  read_write : ∀ a, read (write a) = some a

namespace TextFormat

variable {α : Type*}

attribute [simp] read_write

/-- The values of a finite type, each under a name of its own. -/
def named (all : List α) (name : α → String) (hall : ∀ a, a ∈ all)
    (hnames : (all.map name).Nodup) : TextFormat α where
  write := name
  read text := all.find? fun a => name a = text
  read_write a := by
    obtain ⟨b, hb⟩ := Option.isSome_iff_exists.mp
      (List.find?_isSome (p := fun b => decide (name b = name a)).mpr ⟨a, hall a, by simp⟩)
    have hsame : name b = name a := by simpa using List.find?_some hb
    rw [hb, List.inj_on_of_nodup_map hnames (hall b) (hall a) hsame]

/-- The format with another text for one of the values, a text that could not be read before. -/
def withText [DecidableEq α] (format : TextFormat α) (a : α) (text : String)
    (hfree : format.read text = none) : TextFormat α where
  write b := if b = a then text else format.write b
  read other := if other = text then some a else format.read other
  read_write b := by
    by_cases hb : b = a
    · simp [hb]
    · have hne : format.write b ≠ text := by
        intro hsame
        have hread := format.read_write b
        rw [hsame, hfree] at hread
        cases hread
      simp [hb, hne]

/-- The format of a type that stands for another. -/
def map {β : Type*} (format : TextFormat α) (e : α ≃ β) : TextFormat β where
  write b := format.write (e.symm b)
  read text := (format.read text).map e
  read_write b := by simp

end TextFormat

end FineractReports
