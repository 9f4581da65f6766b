import Mathlib.Data.List.Nodup
import Mathlib.Logic.Function.Basic

/-!
Records that are loaded from a store by a table.

Each row names a field, the key that its value has in the store, and what becomes of
the field when the key is there. The rows are taken one after the other; where no
field has two of them, each field is what its own row makes of it.
-/
namespace Tables

universe u v w
variable {Field : Type u} {Val : Field → Type v} {Key Stored : Type w}

structure Row (Field : Type u) (Val : Field → Type v) (Key Stored : Type w) where
  field : Field
  key : Key
  convert : Stored → Val field → Val field

def Row.read (store : Key → Option Stored) (row : Row Field Val Key Stored)
    (old : Val row.field) : Val row.field :=
  (store row.key).elim old fun stored => row.convert stored old

variable [DecidableEq Field]

def load (store : Key → Option Stored) (table : List (Row Field Val Key Stored))
    (record : (field : Field) → Val field) : (field : Field) → Val field :=
  table.foldl (fun record row =>
    Function.update record row.field (row.read store (record row.field))) record

variable {store : Key → Option Stored} {table : List (Row Field Val Key Stored)}
  {record : (field : Field) → Val field}

theorem load_of_notMem {field : Field} (h : field ∉ table.map Row.field) :
    load store table record field = record field := by
  induction table generalizing record with
  | nil => rfl
  | cons row table ih =>
      rw [List.map_cons, List.mem_cons, not_or] at h
      rw [load, List.foldl_cons, ← load, ih h.2]
      exact Function.update_of_ne h.1 _ _

theorem load_of_mem {row : Row Field Val Key Stored} (hnodup : (table.map Row.field).Nodup)
    (h : row ∈ table) : load store table record row.field = row.read store (record row.field) := by
  induction table generalizing record with
  | nil => exact absurd h List.not_mem_nil
  | cons first table ih =>
      rw [List.map_cons, List.nodup_cons] at hnodup
      rw [load, List.foldl_cons, ← load]
      cases List.mem_cons.mp h with
      | inl heq =>
          subst heq
          rw [load_of_notMem hnodup.1, Function.update_self]
      | inr hrest =>
          have hne : row.field ≠ first.field :=
            fun heq => hnodup.1 (heq ▸ List.mem_map_of_mem hrest)
          rw [ih hnodup.2 hrest, Function.update_of_ne hne]

end Tables
