import Sentential.Reference.Numeral

/-!
# Templates

A text in a configuration may hold references, each of them between `$` with an opening brace and a
closing brace. A reference is the path of a place in the configuration, as in `display.true_text`,
or the name of a function and its arguments, as in `glyph:top`. Both may hold references themselves,
and blanks around them do not count. A backslash before the opening of a reference takes its meaning
away, and a pair of backslashes there stands for one.

A template is such a text taken apart. `Template.read` takes a text apart, or says what keeps one of
its references from being read.
-/

namespace Sentential

mutual

/-- A part of a template. -/
inductive Piece where
  /-- What stands for itself: a text, or the value of a word. -/
  | literal (value : Setting)
  /-- The value at the place with a path, which is put together from parts. -/
  | place (path : List Piece)
  /-- What the function with a name makes of arguments. -/
  | call (name : List Piece) (arguments : List Argument)

/-- An argument of a function. -/
inductive Argument where
  | template (pieces : List Piece)
  | list (items : List Argument)
  | record (fields : List (Text × Argument))

end

/-- A text taken apart into literal parts and references. -/
abbrev Template := List Piece

/-- What keeps a reference from being read. -/
inductive Malformed where
  /-- Characters that mean nothing where they stand. -/
  | stray (t : Text)
  /-- What begins like the text is neither a path nor a call. -/
  | shapeless (t : Text)
  /-- The text ends before the arguments of a call do. -/
  | unclosed
  /-- What begins the text cannot stand where it does. -/
  | misplaced (rest : Text)
  deriving DecidableEq, Repr

/-- The wording of what keeps a reference from being read. -/
def Malformed.message : Malformed → Text
  | stray t => "A reference has no use for ".toList ++ Text.quoted t
  | shapeless t => "Neither a path nor a call begins with ".toList ++ Text.quoted t
  | unclosed => "The arguments of a call are not closed".toList
  | misplaced [] => "A reference is not closed".toList
  | misplaced (c :: _) => "A reference goes on with ".toList ++ Text.quoted [c]

/-- Whether a text begins with the opening of a reference. -/
def opensReference : Text → Bool
  | '$' :: '\x7b' :: _ => true
  | _ => false

/-- Whether a reference is opened anywhere in a text. -/
def hasReference : Text → Bool
  | [] => false
  | c :: rest => opensReference (c :: rest) || hasReference rest

namespace Template

/-- Whether a character can be part of a key without brackets or quotes. -/
def isKeyChar (c : Char) : Bool :=
  !("\\\x7b\x7d()[]:. \t'\"".toList.contains c)

/-- Whether a character stands for itself in an argument without quotes. -/
def isBareChar (c : Char) : Bool :=
  c.isAlphanum || "_/-\\+.$%*@?|:".toList.contains c

/-- Whether a character in an argument without quotes needs a backslash before it. -/
def isEscapable (c : Char) : Bool :=
  "\\()[]\x7b\x7d:=, \t".toList.contains c

/-- Whether a character is a blank inside a reference. -/
def isGap (c : Char) : Bool :=
  c == ' ' || c == '\t'

/-- What follows the blanks that a text begins with. -/
def skipGap (t : Text) : Text :=
  t.dropWhile isGap

/-- Whether a key can be a part of a function's name. -/
def isName : Text → Bool
  | [] => false
  | c :: rest =>
    (c.isAlpha || c == '_') && rest.all fun d => d.isAlphanum || d == '_' || d == '-'

/-- Puts a literal text before a template. -/
def prepend : Text → Template → Template
  | [], pieces => pieces
  | t, .literal (.text u) :: pieces => .literal (.text (t ++ u)) :: pieces
  | t, pieces => .literal (.text t) :: pieces

/-- A template of one literal text. -/
def ofText (t : Text) : Template :=
  [.literal (.text t)]

/-- Whether a path has the form of a function's name: names, or references, between single dots. -/
def namesFunction : Template → Bool
  | [.literal (.text key)] => isName key
  | [.literal _] => false
  | [_] => true
  | .literal (.text key) :: .literal (.text ['.']) :: rest => isName key && namesFunction rest
  | .literal _ :: _ => false
  | _ :: .literal (.text ['.']) :: rest => namesFunction rest
  | _ => false

/-- Whether a character ends an argument without quotes. -/
def endsBare (c : Char) : Bool :=
  ",[]\x7b\x7d'\"".toList.contains c

/-- The blanks that a text begins with and the character behind them. -/
def gapAndNext (t : Text) : Text :=
  t.takeWhile isGap ++ (skipGap t).take 1

/-- What is wrong with a path that goes on with a text. -/
def badPath (t : Text) : Malformed :=
  match t with
  | [] => .misplaced []
  | c :: rest =>
    if "[].:\x7d".toList.contains c then .misplaced (c :: rest) else .stray (gapAndNext t)

/-- The argument that was written as `written` without quotes, where it is read as `pieces`. If it
is one word that needed no backslash, its value is the word's. -/
def bareArgument (written : Text) (pieces : Template) : Template :=
  match pieces with
  | [.literal (.text t)] => if t = written then [.literal (wordValue t)] else pieces
  | _ => pieces

/-- Reads the name of a field up to the colon behind it. -/
def readFieldName : Text → Except Malformed (Text × Text)
  | [] => .error (.misplaced [])
  | ':' :: rest => .ok ([], rest)
  | '\\' :: d :: rest =>
    if isEscapable d then (readFieldName rest).map fun (name, rest) => (d :: name, rest)
    else (readFieldName (d :: rest)).map fun (name, rest) => ('\\' :: name, rest)
  | c :: rest =>
    if isBareChar c || isGap c then (readFieldName rest).map fun (name, rest) => (c :: name, rest)
    else if endsBare c then .error (.misplaced (c :: rest))
    else .error (.stray [c])

/-! ## Reading

Each reader returns what it has read together with the rest of the text. Every step is paid for from
a budget, of which a text never needs more than four for each of its characters. -/

mutual

/-- Reads a text up to its end, or up to the quote that closes it. Of the backslashes before a
reference or the closing quote every second stands, and an odd one takes the meaning of what
follows. -/
def readText : Nat → Option Char → Text → Except Malformed (Template × Text)
  | 0, _, _ => .error .unclosed
  | _ + 1, quote, [] => if quote.isNone then .ok ([], []) else .error (.misplaced [])
  | budget + 1, quote, c :: rest =>
    let slashes := (c :: rest).takeWhile (· == '\\')
    let half := slashes.take (slashes.length / 2)
    let bare := slashes.length % 2 == 0
    match (c :: rest).dropWhile (· == '\\') with
    | [] => if quote.isNone then .ok (ofText slashes, []) else .error (.misplaced [])
    | d :: after =>
      if opensReference (d :: after) then
        if bare then do
          let (reference, rest) ← readReference budget (after.drop 1)
          let (pieces, rest) ← readText budget quote rest
          return (prepend half (reference :: pieces), rest)
        else do
          let (pieces, rest) ← readText budget quote (after.drop 1)
          return (prepend (half ++ ['$', '\x7b']) pieces, rest)
      else if quote = some d then
        if bare then .ok (prepend half [], after)
        else do
          let (pieces, rest) ← readText budget quote after
          return (prepend (half ++ [d]) pieces, rest)
      else do
        let (pieces, rest) ← readText budget quote after
        return (prepend (slashes ++ [d]) pieces, rest)

/-- Reads a reference behind its opening. -/
def readReference : Nat → Text → Except Malformed (Piece × Text)
  | 0, _ => .error .unclosed
  | budget + 1, t =>
    if ((skipGap t).take 1).all "]:\x7d".toList.contains then
      .error (.shapeless ('$' :: '\x7b' :: gapAndNext t))
    else do
      let (path, rest) ← readPath budget (skipGap t)
      match skipGap rest with
      | '\x7d' :: rest => return (.place path, rest)
      | ':' :: rest =>
        if namesFunction path then
          match skipGap rest with
          | '\x7d' :: rest => return (.call path [], rest)
          | rest =>
            let (arguments, rest) ← readArguments budget '\x7d' rest
            return (.call path arguments, rest)
        else .error (.misplaced (':' :: rest))
      | _ =>
        if rest.isEmpty && namesFunction path then .error (.shapeless ('$' :: '\x7b' :: t))
        else .error (badPath rest)

/-- Reads a path: the dots of a relative one, and its keys. -/
def readPath : Nat → Text → Except Malformed (Template × Text)
  | 0, _ => .error .unclosed
  | budget + 1, t =>
    let dots := (t.takeWhile (· == '.')).map fun dot => Piece.literal (.text [dot])
    match t.dropWhile (· == '.') with
    | '[' :: rest => do
      let (keys, rest) ← readKeys budget ('[' :: rest)
      return (dots ++ keys, rest)
    | rest => do
      let (key, rest) ← readKey budget rest
      let (keys, rest) ← readKeys budget rest
      return (dots ++ key :: keys, rest)

/-- Reads the further keys of a path, each behind a dot or between brackets. -/
def readKeys : Nat → Text → Except Malformed (Template × Text)
  | 0, _ => .error .unclosed
  | budget + 1, '.' :: rest => do
    let (key, rest) ← readKey budget rest
    let (keys, rest) ← readKeys budget rest
    return (.literal (.text ['.']) :: key :: keys, rest)
  | budget + 1, '[' :: rest => do
    let (key, rest) ← readKey budget rest
    match rest with
    | ']' :: rest =>
      let (keys, rest) ← readKeys budget rest
      return (.literal (.text ['[']) :: key :: .literal (.text [']']) :: keys, rest)
    | rest => .error (badPath rest)
  | _ + 1, t => .ok ([], t)

/-- Reads a key, or the reference that stands in its place. -/
def readKey : Nat → Text → Except Malformed (Piece × Text)
  | 0, _ => .error .unclosed
  | budget + 1, t =>
    if opensReference t then readReference budget (t.drop 2)
    else
      match t.takeWhile isKeyChar with
      | [] => .error (badPath t)
      | key => .ok (.literal (.text key), t.dropWhile isKeyChar)

/-- Reads arguments, with commas between them, and the character that closes them. -/
def readArguments : Nat → Char → Text → Except Malformed (List Argument × Text)
  | 0, _, _ => .error .unclosed
  | budget + 1, close, t => do
    let (argument, rest) ← readArgument budget t
    match skipGap rest with
    | [] => .error .unclosed
    | c :: rest =>
      if c = ',' then
        let (arguments, rest) ← readArguments budget close (skipGap rest)
        return (argument :: arguments, rest)
      else if c = close then return ([argument], rest)
      else .error (.misplaced (c :: rest))

/-- Reads an argument. What stands between quotes is a text. -/
def readArgument : Nat → Text → Except Malformed (Argument × Text)
  | 0, _ => .error .unclosed
  | budget + 1, t =>
    match t with
    | '\'' :: rest => do
      let (pieces, rest) ← readText budget (some '\'') rest
      return (.template (.literal (.text []) :: pieces), rest)
    | '"' :: rest => do
      let (pieces, rest) ← readText budget (some '"') rest
      return (.template (.literal (.text []) :: pieces), rest)
    | '[' :: rest =>
      match skipGap rest with
      | ']' :: rest => .ok (.list [], rest)
      | rest => do
        let (items, rest) ← readArguments budget ']' rest
        return (.list items, rest)
    | '\x7b' :: rest =>
      match skipGap rest with
      | '\x7d' :: rest => .ok (.record [], rest)
      | rest => do
        let (fields, rest) ← readFields budget rest
        return (.record fields, rest)
    | _ => do
      let (pieces, rest) ← readBare budget t
      return (.template (bareArgument (t.take (t.length - rest.length)) pieces), rest)

/-- Reads the fields of a record, with commas between them, and the closing brace. -/
def readFields : Nat → Text → Except Malformed (List (Text × Argument) × Text)
  | 0, _ => .error .unclosed
  | budget + 1, t => do
    let (name, rest) ← readFieldName t
    let (value, rest) ← readArgument budget (skipGap rest)
    match skipGap rest with
    | [] => .error .unclosed
    | c :: rest =>
      if c = ',' then
        let (fields, rest) ← readFields budget (skipGap rest)
        return ((name, value) :: fields, rest)
      else if c = '\x7d' then return ([(name, value)], rest)
      else .error (.misplaced (c :: rest))

/-- Reads an argument without quotes, up to the blanks and the character behind it. -/
def readBare : Nat → Text → Except Malformed (Template × Text)
  | 0, _ => .error .unclosed
  | budget + 1, t =>
    if ((skipGap t).take 1).all endsBare then .ok ([], t)
    else if opensReference t then do
      let (reference, rest) ← readReference budget (t.drop 2)
      let (pieces, rest) ← readBare budget rest
      return (reference :: pieces, rest)
    else
      match t with
      | '\\' :: d :: rest =>
        if isEscapable d then do
          let (pieces, rest) ← readBare budget rest
          return (prepend [d] pieces, rest)
        else do
          let (pieces, rest) ← readBare budget (d :: rest)
          return (prepend ['\\'] pieces, rest)
      | c :: rest =>
        if isBareChar c || isGap c then do
          let (pieces, rest) ← readBare budget rest
          return (prepend [c] pieces, rest)
        else .error (.stray [c])
      | [] => .ok ([], [])

end

/-- A text taken apart. -/
def read (t : Text) : Except Malformed Template :=
  match readText (4 * t.length + 4) none t with
  | .error e => .error e
  | .ok (template, _) => .ok template

end Template

end Sentential
