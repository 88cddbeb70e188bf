import Sentential.Text.Quoted
import Sentential.Double.Notation

/-!
# Settings

What a user gives for a variable, or for a field of a configuration, is any value of a data format.
For a variable all that counts is whether the value is empty: nothing, false, zero, the empty text
and empty collections make it false, and everything else makes it true. A list of settings by name
keeps the place of a name's first entry and the value of its last.
-/

namespace Sentential

/-- A value given for a variable or for a field of a configuration. -/
inductive Setting where
  | absent
  | flag (b : Bool)
  | whole (n : Int)
  | decimal (x : Double)
  | text (t : Text)
  | list (items : List Setting)
  | record (fields : List (Text × Setting))
  deriving Inhabited

namespace Setting

/-- What sort of value a setting is. -/
inductive Kind where
  | absent
  | flag
  | whole
  | decimal
  | text
  | list
  | record
  deriving DecidableEq, Repr

/-- The wording for a sort of value. -/
def Kind.label : Kind → Text
  | absent => "nothing".toList
  | flag => "a truth value".toList
  | whole => "a whole number".toList
  | decimal => "a decimal".toList
  | text => "a text".toList
  | list => "a list".toList
  | record => "a record".toList

/-- The sort of a value. -/
def kind : Setting → Kind
  | absent => .absent
  | flag _ => .flag
  | whole _ => .whole
  | decimal _ => .decimal
  | text _ => .text
  | list _ => .list
  | record _ => .record

/-- How long a value is, if it is of a sort that has a length. -/
def length? : Setting → Option Nat
  | text t => some t.length
  | list items => some items.length
  | record fields => some fields.length
  | absent | flag _ | whole _ | decimal _ => none

/-- Whether a value makes its variable true. -/
def holds : Setting → Bool
  | absent => false
  | flag b => b
  | whole n => n != 0
  | decimal x => !x.isZero
  | text t => !t.isEmpty
  | list items => !items.isEmpty
  | record fields => !fields.isEmpty

mutual

/-- A value as messages show it. -/
def shown : Setting → Text
  | absent => "None".toList
  | flag true => "True".toList
  | flag false => "False".toList
  | whole n => Text.ofInt n
  | decimal x => x.shown
  | text t => Text.quoted t
  | list items => '[' :: ", ".toList.intercalate (shownItems items) ++ [']']
  | record fields => '\x7b' :: ", ".toList.intercalate (shownFields fields) ++ ['\x7d']

/-- The values of a list, each as messages show it. -/
def shownItems : List Setting → List Text
  | [] => []
  | item :: rest => item.shown :: shownItems rest

/-- The fields of a record, each as messages show it. -/
def shownFields : List (Text × Setting) → List Text
  | [] => []
  | (name, value) :: rest =>
    (Text.quoted name ++ ": ".toList ++ value.shown) :: shownFields rest

end

/-- A value as a part of a longer text: a text as it is, anything else as messages show it. -/
def plain : Setting → Text
  | text t => t
  | v => v.shown

mutual

/-- The number of values that a value consists of, itself included. -/
def size : Setting → Nat
  | list items => sizeItems items + 1
  | record fields => sizeFields fields + 1
  | _ => 1

/-- The number of values that the items of a list consist of. -/
def sizeItems : List Setting → Nat
  | [] => 0
  | item :: rest => item.size + sizeItems rest

/-- The number of values that the fields of a record consist of. -/
def sizeFields : List (Text × Setting) → Nat
  | [] => 0
  | (_, value) :: rest => value.size + sizeFields rest

end

end Setting

/-- Settings by name. A name may occur again: its last value counts, in the place of its first
occurrence. -/
abbrev Settings := List (Text × Setting)

namespace Settings

/-- The value that counts for a name. -/
def value? (settings : Settings) (name : Text) : Option Setting :=
  settings.reverse.lookup name

/-- Whether the value that counts for a name makes it true. -/
def truth? (settings : Settings) (name : Text) : Option Bool :=
  (settings.value? name).map Setting.holds

/-- The names of the settings, each once, in the order of their first occurrence. -/
def names (settings : Settings) : List Text :=
  (settings.map Prod.fst).eraseDups

/-- The settings that count, one for each name. -/
def normalized (settings : Settings) : Settings :=
  settings.names.filterMap fun name => (settings.value? name).map (name, ·)

/-- The settings as messages show them. -/
def shown (settings : Settings) : Text :=
  (Setting.record settings.normalized).shown

end Settings

end Sentential
