import Sentential.Reference.Numeral

/-!
# Places and paths

A place in a configuration is reached from its root by steps, each into a field of a record or to an
item of a list. A path names a place: its keys stand behind dots or between brackets, and dots in
front of it make it relative to the container in which it is written. `Path.find` says what is at
the end of a path, or why there is nothing.
-/

namespace Sentential

/-- A step to a part of a value. -/
inductive Step where
  | field (name : Text)
  | item (index : Nat)
  deriving DecidableEq, Repr

/-- The steps from a value to a part of it. -/
abbrev Place := List Step

/-- A place as messages show it, behind what precedes it. -/
def Place.shownAfter : Text → Place → Text
  | before, [] => before
  | before, .field name :: rest =>
    shownAfter (if before.isEmpty then name else before ++ '.' :: name) rest
  | before, .item index :: rest =>
    shownAfter (before ++ '[' :: Text.ofNat index ++ [']']) rest

/-- A place as messages show it. -/
def Place.shown (place : Place) : Text :=
  Place.shownAfter [] place

mutual

/-- The texts in a value, with their places, where the value itself has the given place. -/
def Setting.textsBelow (place : Place) : Setting → List (Place × Text)
  | .text t => [(place, t)]
  | .list items => Setting.textsInItems place 0 items
  | .record fields => Setting.textsInFields place fields
  | _ => []

/-- The texts in the items of a list from an index on. -/
def Setting.textsInItems (place : Place) (index : Nat) : List Setting → List (Place × Text)
  | [] => []
  | item :: rest =>
    item.textsBelow (place ++ [.item index]) ++ Setting.textsInItems place (index + 1) rest

/-- The texts in the fields of a record. -/
def Setting.textsInFields (place : Place) : List (Text × Setting) → List (Place × Text)
  | [] => []
  | (name, value) :: rest =>
    value.textsBelow (place ++ [.field name]) ++ Setting.textsInFields place rest

end

/-- Whether a value only says that it is still to be given. -/
def Setting.isOpen : Setting → Bool
  | .text ['?', '?', '?'] => true
  | _ => false

/-- Why a path does not lead to a value. -/
inductive PathError where
  /-- Nothing goes by the path. -/
  | nothing (path : Text)
  /-- A relative path goes higher than the root. -/
  | aboveRoot (path : Text)
  /-- The path goes on below a value that has no parts. -/
  | noParts (path parent key : Text)
  /-- The items of a list have no names. -/
  | itemName (key : Text)
  /-- The value at the place is still to be given. -/
  | notGiven (place : Text)
  deriving DecidableEq, Repr

/-- The wording of the failure. -/
def PathError.message : PathError → Text
  | nothing path => "There is nothing at ".toList ++ Text.quoted path
  | aboveRoot path => "The path ".toList ++ Text.quoted path ++ " leads above the root".toList
  | noParts path parent key =>
    "The path ".toList ++ Text.quoted path ++ " leads to ".toList ++ Text.quoted key ++
      " below ".toList ++ Text.quoted parent ++ ", which has no parts".toList
  | itemName key => "No item of a list is named ".toList ++ Text.quoted key
  | notGiven place => "The value of ".toList ++ place ++ " is not given".toList

namespace Path

/-- The keys of a path without dots in front. Every dot or opening bracket begins a key. -/
def keys (path : Text) : List Text :=
  Text.pieces (fun c => c == '.' || c == '[')
    ((if path.head? = some '[' then path.drop 1 else path).filter (· != ']'))

/-- The part of a value that goes by a key, where `seen` are the keys that led to the value. -/
def part (path : Text) (seen : List Text) (key : Text) : Setting → Except PathError (Step × Setting)
  | .record fields =>
    match fields.lookup key with
    | some v => .ok (.field key, v)
    | none => .error (.nothing path)
  | .list items =>
    match wholeNumber? key with
    | none => .error (.itemName key)
    | some n =>
      if n < 0 then .error (.nothing path)
      else
        match items[n.toNat]? with
        | some v => .ok (.item n.toNat, v)
        | none => .error (.nothing path)
  | _ => .error (.noParts path (['.'].intercalate seen) key)

/-- What the keys of a path lead to from the value at a place. -/
def descend (path : Text) : List Text → Place → Setting → List Text →
    Except PathError (Place × Setting)
  | _, place, v, [] => .ok (place, v)
  | seen, place, v, key :: rest =>
    match part path seen key v with
    | .error e => .error e
    | .ok (step, w) =>
      if w.isOpen then .error (.notGiven (Place.shown (place ++ [step])))
      else descend path (seen ++ [key]) (place ++ [step]) w rest

/-- The value at a place, or nothing where there is no such place. -/
def valueAt : Setting → Place → Setting
  | v, [] => v
  | .record fields, .field name :: rest =>
    match fields.lookup name with
    | some v => valueAt v rest
    | none => .absent
  | .list items, .item index :: rest =>
    match items[index]? with
    | some v => valueAt v rest
    | none => .absent
  | _, _ => .absent

/-- The place that a path names in the container `here`, and the value there. One dot in front
stands for the container itself, and each further one for the next container around it. -/
def find (root : Setting) (here : Place) (path : Text) : Except PathError (Place × Setting) :=
  let key := path.dropWhile (· == '.')
  match (path.takeWhile (· == '.')).length with
  | 0 => descend key [] [] root (keys key)
  | up + 1 =>
    if up ≤ here.length then
      let base := here.take (here.length - up)
      descend key [] base (valueAt root base) (keys key)
    else .error (.aboveRoot path)

end Path

end Sentential
