import Sentential.Reference.Glyph
import Sentential.Reference.Path
import Sentential.Reference.Template

/-!
# What references stand for

A text that is nothing but one reference has the value that the reference stands for, whatever sort
of value that is. In any other text the references are replaced by their values as texts. A text at
a place that is referred to is resolved in its turn, as a part of the container in which it stands.

A chain of references that is longer than the configuration has values comes back to one of them, so
the number of values bounds the chains that end.
-/

namespace Sentential

/-- Why a text cannot be resolved. -/
inductive ReferenceError where
  /-- The text has a reference that cannot be read. -/
  | malformed (e : Malformed)
  /-- No glyph has the name, which is given as messages show it. -/
  | unknownGlyph (name : Text)
  /-- A glyph is asked for by a number of names that is not one. -/
  | glyphNames (count : Nat)
  /-- A glyph is asked for by a collection that is written out. -/
  | glyphCollection (kind : Setting.Kind)
  /-- No function has the name. -/
  | unknownFunction (name : Text)
  /-- A key is put together from a value that is no text. -/
  | keyNoText (value : Text)
  /-- A path leads to no value. -/
  | path (e : PathError)
  /-- A text refers to a container that it is part of. -/
  | enclosing
  /-- A chain of references comes back to where it has been. -/
  | circular
  deriving DecidableEq, Repr

/-- The wording of the failure. -/
def ReferenceError.message : ReferenceError → Text
  | malformed e => e.message
  | unknownGlyph name => "No glyph is named ".toList ++ name
  | glyphNames count => "A glyph has one name and not ".toList ++ Text.ofNat count
  | glyphCollection kind => "A glyph is not named by ".toList ++ kind.label
  | unknownFunction name => "No function is named ".toList ++ Text.quoted name
  | keyNoText value => "A key is a text and not ".toList ++ value
  | path e => e.message
  | enclosing => "A text refers to a container that it is part of".toList
  | circular => "A chain of references has no end".toList

/-- What a function is given as an argument. -/
structure Given where
  value : Setting
  /-- Whether the argument is a collection that is written out. -/
  writtenOut : Bool

/-- Whether an argument is a collection that is written out. -/
def Argument.isCollection : Argument → Bool
  | template _ => false
  | _ => true

namespace Template

variable (read : Text → Except ReferenceError Setting)
  (apply : Text → List Given → Except ReferenceError Setting)

mutual

/-- The value of a part of a template, where `read` gives the value at a path and `apply` that of a
function at arguments. -/
def pieceValue : Piece → Except ReferenceError Setting
  | .literal v => .ok v
  | .place path =>
    match keyText path with
    | .error e => .error e
    | .ok t => read t
  | .call name arguments =>
    match keyText name with
    | .error e => .error e
    | .ok t =>
      match values arguments with
      | .error e => .error e
      | .ok vs => apply t vs

/-- The text that the parts of a path or of a name make. -/
def keyText : List Piece → Except ReferenceError Text
  | [] => .ok []
  | piece :: rest =>
    match pieceValue piece with
    | .error e => .error e
    | .ok (.text t) =>
      match keyText rest with
      | .error e => .error e
      | .ok u => .ok (t ++ u)
    | .ok v => .error (.keyNoText v.shown)

/-- The value of a template: of its only part, or the text that its parts make. -/
def value : List Piece → Except ReferenceError Setting
  | [] => .ok (.text [])
  | piece :: rest =>
    match pieceValue piece with
    | .error e => .error e
    | .ok v =>
      if rest.isEmpty then .ok v
      else
        match value rest with
        | .error e => .error e
        | .ok w => .ok (.text (v.plain ++ w.plain))

/-- The value of an argument. -/
def argumentValue : Argument → Except ReferenceError Setting
  | .template pieces => value pieces
  | .list items =>
    match values items with
    | .error e => .error e
    | .ok vs => .ok (.list (vs.map Given.value))
  | .record fields =>
    match fieldValues fields with
    | .error e => .error e
    | .ok vs => .ok (.record vs)

/-- The values of arguments. -/
def values : List Argument → Except ReferenceError (List Given)
  | [] => .ok []
  | argument :: rest =>
    match argumentValue argument with
    | .error e => .error e
    | .ok v =>
      match values rest with
      | .error e => .error e
      | .ok vs => .ok (⟨v, argument.isCollection⟩ :: vs)

/-- The values of fields. -/
def fieldValues : List (Text × Argument) → Except ReferenceError Settings
  | [] => .ok []
  | (name, argument) :: rest =>
    match argumentValue argument with
    | .error e => .error e
    | .ok v =>
      match fieldValues rest with
      | .error e => .error e
      | .ok vs => .ok ((name, v) :: vs)

end

end Template

/-- What a function makes of arguments. There is one function, which finds a glyph by its name. -/
def applyFunction (name : Text) (arguments : List Given) : Except ReferenceError Setting :=
  if name = "glyph".toList then
    match arguments with
    | [⟨v, true⟩] => .error (.glyphCollection v.kind)
    | [⟨.text t, _⟩] =>
      match glyphs.lookup t with
      | some glyph => .ok (.text glyph)
      | none => .error (.unknownGlyph (Text.quoted t))
    | [⟨v, _⟩] => .error (.unknownGlyph v.shown)
    | _ => .error (.glyphNames arguments.length)
  else .error (.unknownFunction name)

/-- The value of a text in the container `here`, where chains of references have at most the given
length. -/
def resolveWithin (root : Setting) : Nat → Place → Text → Except ReferenceError Setting
  | 0, _, t => if hasReference t then .error .circular else .ok (.text t)
  | length + 1, here, t =>
    if hasReference t then
      match Template.read t with
      | .error e => .error (.malformed e)
      | .ok template =>
        Template.value
          (fun path =>
            match Path.find root here path with
            | .error e => .error (.path e)
            | .ok (place, v) =>
              if place.isPrefixOf here then .error .enclosing
              else
                match v with
                | .text u => resolveWithin root length place.dropLast u
                | v => .ok v)
          applyFunction template
    else .ok (.text t)

/-- The value of a text in the container `here` of a configuration. -/
def resolve (root : Setting) (here : Place) (t : Text) : Except ReferenceError Setting :=
  resolveWithin root (root.size + 1) here t

end Sentential
