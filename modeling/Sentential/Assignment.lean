import Sentential.Setting

/-!
# Assignments

An assignment is made for the variables of one statement, of which it may leave some without a
value. It keeps a slot for every variable, in the order of the statement and each name once, so
that its entries always stand in that order, however and in whatever order they were set. Asking for
a variable that has no slot, or whose slot is empty, fails with the name and the statement.
-/

namespace Sentential

/-- What a variable is asked for by: its name, the variable itself, or a number, which is the name
of none. -/
inductive Key where
  | name (t : Text)
  | atom (t : Text)
  | number (n : Int)
  deriving DecidableEq, Repr

namespace Key

/-- The key as messages show it. -/
def shown : Key → Text
  | name t | atom t => Text.quoted t
  | number n => Text.ofInt n

/-- The name that the key is, or that the variable has, if there is one. -/
def name? : Key → Option Text
  | name t | atom t => some t
  | number _ => none

/-- The key that failures report: a variable goes by its name. -/
def reported : Key → Key
  | atom t => name t
  | key => key

end Key

/-- A variable is not declared, or has no value, in an assignment that was made for the statement
with the text `source`. -/
structure Undefined where
  key : Key
  source : Option Text
  deriving DecidableEq, Repr

namespace Undefined

/-- The wording of the failure. It names the statement if there is one. -/
def message (u : Undefined) : Text :=
  "Variable ".toList ++ u.key.shown ++ " is not defined".toList ++
    match u.source with
    | some text => " for statement ".toList ++ Text.quoted text
    | none => []

end Undefined

/-- Truth values for the variables of a statement. -/
structure Assignment where
  /-- The declared names in order, each with its value if it has one. -/
  slots : List (Text × Option Bool)
  /-- The text of the statement, for messages. -/
  source : Option Text
  deriving DecidableEq, Repr

namespace Assignment

/-- The declared names, with a value or without. -/
def declared (a : Assignment) : List Text :=
  a.slots.map Prod.fst

/-- The names that have a value, with it, in the declared order. -/
def entries (a : Assignment) : List (Text × Bool) :=
  a.slots.filterMap fun slot => slot.2.map (slot.1, ·)

/-- The value of a name, if it is declared and has one. -/
def value? (a : Assignment) (name : Text) : Option Bool :=
  (a.slots.lookup name).join

/-- Two assignments are the same when their entries are, in order. -/
def same (a b : Assignment) : Bool :=
  a.entries == b.entries

/-- The assignment as messages show it. -/
def shown (a : Assignment) : Text :=
  " | ".toList.intercalate (a.entries.map fun entry =>
    entry.1 ++ " = ".toList ++ if entry.2 then "True".toList else "False".toList)

/-! ## Making assignments -/

/-- The slots for a list of names, each name once and in its first place. -/
def slotsFor (names : List Text) (value? : Text → Option Bool) : List (Text × Option Bool) :=
  names.eraseDups.map fun name => (name, value? name)

/-- The failure for the first setting whose name is not declared. -/
def undeclared? (declared : List Text) (source : Option Text) (settings : Settings) :
    Option Undefined :=
  (settings.find? fun setting => !declared.contains setting.1).map fun setting =>
    ⟨.name setting.1, source⟩

/-- The assignment of some settings to declared names. All settings must be of such names; a name
without a setting has no value. -/
def make (names : List Text) (settings : Settings) (source : Option Text) :
    Except Undefined Assignment :=
  match undeclared? names source settings with
  | some u => .error u
  | none => .ok ⟨slotsFor names settings.truth?, source⟩

/-- No declared name has a value. -/
def empty (names : List Text) (source : Option Text) : Assignment :=
  ⟨slotsFor names fun _ => none, source⟩

/-- Every declared name is true. -/
def allTrue (names : List Text) (source : Option Text) : Assignment :=
  ⟨slotsFor names fun _ => some true, source⟩

/-- The values of a row, one for each name. Of a repeated name the last value counts. -/
def ofRow (names : List Text) (row : List Bool) (source : Option Text) : Assignment :=
  ⟨slotsFor names fun name => (names.zip row).reverse.lookup name, source⟩

/-! ## Changing values -/

/-- The assignment built anew from what it declares and the values it has. -/
def copy (a : Assignment) : Assignment :=
  ⟨slotsFor a.declared a.value?, a.source⟩

/-- The assignment with another value for one name. -/
def withValue (a : Assignment) (key : Key) (value : Setting) : Except Undefined Assignment :=
  match key.name? with
  | some name =>
    if a.declared.contains name then
      .ok { a with
        slots := a.slots.map fun slot =>
          if slot.1 = name then (slot.1, some value.holds) else slot }
    else .error ⟨key.reported, a.source⟩
  | none => .error ⟨key.reported, a.source⟩

/-- The assignment with other values for all names that have a setting. -/
def update (a : Assignment) (settings : Settings) : Except Undefined Assignment :=
  match undeclared? a.declared a.source settings with
  | some u => .error u
  | none =>
    .ok { a with slots := a.slots.map fun slot => (slot.1, (settings.truth? slot.1).or slot.2) }

/-! ## Asking for values -/

/-- The value of a variable, which must have one. -/
def get (a : Assignment) (key : Key) : Except Undefined Bool :=
  match key.name?.bind a.value? with
  | some b => .ok b
  | none => .error ⟨key.reported, a.source⟩

/-- The value of a variable, if it has one. -/
def get? (a : Assignment) (key : Key) : Option Bool :=
  key.name?.bind a.value?

/-- Whether a variable has a value. -/
def contains (a : Assignment) (key : Key) : Bool :=
  a.entries.any fun entry => some entry.1 == key.name?

end Assignment

end Sentential
