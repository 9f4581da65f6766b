import Mathlib.Algebra.Group.Nat.Defs
import Mathlib.Logic.Function.Basic
import SubutaiTray.Qt.Text

/-!
`QVariant` with the types that settings are saved with, and `QSettings`.

What a variant converts to when it holds another type is a parameter; that a
value of the type itself comes out again is all that is used of it.
-/
namespace SubutaiTray

inductive QVariant where
  | string (s : QString)
  | bool (b : Bool)
  | uint (n : UInt32)
  | int (n : Int)
  | byteArray (ba : QByteArray)
  | map (entries : List (QString × QVariant))

abbrev QVariantMap := List (QString × QVariant)

namespace QVariantMap

def insert (map : QVariantMap) (key : QString) (value : QVariant) : QVariantMap :=
  (key, value) :: map.filter fun entry => entry.1 ≠ key

def find (map : QVariantMap) (key : QString) : Option QVariant :=
  (map.find? fun entry => entry.1 = key).map Prod.snd

theorem find_insert_self (map : QVariantMap) (key : QString) (value : QVariant) :
    (map.insert key value).find key = some value := by
  simp [find, insert]

theorem find_insert_of_ne (map : QVariantMap) {key key' : QString} (h : key' ≠ key) (value : QVariant) :
    (map.insert key value).find key' = map.find key' := by
  rw [find, insert, List.find?_cons_of_neg (by simpa using Ne.symm h), List.find?_filter]
  refine congrArg (Option.map Prod.snd) (congrArg (List.find? · map) ?_)
  funext entry
  by_cases hentry : entry.1 = key'
  · simp [hentry, h]
  · simp [hentry]

end QVariantMap

structure VariantConversions where
  toString : QVariant → QString
  toBool : QVariant → Bool
  /-- `toUInt(&ok)`, and nothing when that is not `ok` -/
  toUInt : QVariant → Option UInt32
  toInt : QVariant → Int
  toByteArray : QVariant → QByteArray
  toMap : QVariant → QVariantMap
  toString_string : ∀ s, toString (.string s) = s
  toBool_bool : ∀ b, toBool (.bool b) = b
  toUInt_uint : ∀ n, toUInt (.uint n) = some n
  toUInt_int : ∀ n : UInt32, n.toNat < 2 ^ 31 → toUInt (.int n.toNat) = some n
  toInt_int : ∀ n, toInt (.int n) = n
  toByteArray_byteArray : ∀ ba, toByteArray (.byteArray ba) = ba
  toMap_map : ∀ entries, toMap (.map entries) = entries

/-- The values by their keys; `none` where `value` gives an invalid variant. -/
abbrev QSettings := QString → Option QVariant

namespace QSettings

def setValue (settings : QSettings) (key : QString) (value : QVariant) : QSettings :=
  Function.update settings key (some value)

theorem setValue_self (settings : QSettings) (key : QString) (value : QVariant) :
    settings.setValue key value key = some value := by
  rw [setValue, Function.update_self]

theorem setValue_of_ne (settings : QSettings) {key key' : QString} (h : key' ≠ key)
    (value : QVariant) : settings.setValue key value key' = settings key' := by
  rw [setValue, Function.update_of_ne h]

end QSettings

/-- Conversions that take every other type for nothing. -/
def plainConversions : VariantConversions where
  toString
    | .string s => s
    | _ => []
  toBool
    | .bool b => b
    | _ => false
  toUInt
    | .uint n => some n
    | .int n => some (UInt32.ofInt n)
    | _ => none
  toInt
    | .int n => n
    | _ => 0
  toByteArray
    | .byteArray ba => ba
    | _ => []
  toMap
    | .map entries => entries
    | _ => []
  toString_string _ := rfl
  toBool_bool _ := rfl
  toUInt_uint _ := rfl
  toUInt_int n h := by
    apply congrArg some
    apply UInt32.toNat_inj.mp
    simp only [UInt32.ofInt, UInt32.toNat_ofNat']
    omega
  toInt_int _ := rfl
  toByteArray_byteArray _ := rfl
  toMap_map _ := rfl

end SubutaiTray
