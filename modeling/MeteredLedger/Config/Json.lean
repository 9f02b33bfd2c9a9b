import MeteredLedger.Bytes

/-!
# Strict JSON

Configuration texts are strict JSON. Numbers are kept as they are written, because an amount has to
be a plain literal; fields are kept in order with repetitions; a string that holds half of a
surrogate pair has no text, which matters only where its text is asked for.
-/

namespace MeteredLedger

/-- A JSON value. -/
inductive Json where
  | null
  | bool (value : Bool)
  | number (literal : List Char)
  | string (text : Option String)
  | array (items : List Json)
  | object (fields : List (Option String × Json))

namespace Json

/-- Whether a character may stand between the parts of a text. -/
def isBlank (c : Char) : Bool := c == ' ' || c == '\n' || c == '\t' || c == '\r'

def skipBlanks (cs : List Char) : List Char := cs.dropWhile isBlank

def escape? (c : Char) : Option Nat :=
  if c == '\"' || c == '\\' || c == '/' then some c.toNat
  else if c == 'b' then some 8
  else if c == 'f' then some 12
  else if c == 'n' then some 10
  else if c == 'r' then some 13
  else if c == 't' then some 9
  else none

/-- The characters of a string up to its closing quote, and what follows it. An escaped half of a
surrogate pair stands for itself. -/
def stringBody : List Char → Option (List Nat × List Char)
  | [] => none
  | '\\' :: 'u' :: a :: b :: c :: d :: rest => do
    let high := 4096 * (← Bytes.hexValue? a) + 256 * (← Bytes.hexValue? b)
    let low := 16 * (← Bytes.hexValue? c) + (← Bytes.hexValue? d)
    let (codes, rest) ← stringBody rest
    return ((high + low) :: codes, rest)
  | '\\' :: c :: rest => do
    let code ← escape? c
    let (codes, rest) ← stringBody rest
    return (code :: codes, rest)
  | c :: rest =>
    if c == '\"' then some ([], rest)
    else if c == '\\' || c.toNat < 32 then none
    else do
      let (codes, rest) ← stringBody rest
      return (c.toNat :: codes, rest)

def isHighHalf (n : Nat) : Bool := decide (0xd800 ≤ n) && decide (n ≤ 0xdbff)

def isLowHalf (n : Nat) : Bool := decide (0xdc00 ≤ n) && decide (n ≤ 0xdfff)

/-- The text of a list of codes, if every surrogate is paired. -/
def joinHalves? : List Nat → Option (List Char)
  | [] => some []
  | high :: low :: rest =>
    if isHighHalf high then
      if isLowHalf low then
        (joinHalves? rest).map
          (Char.ofNat (0x10000 + 1024 * (high - 0xd800) + (low - 0xdc00)) :: ·)
      else none
    else if isLowHalf high then none
    else (joinHalves? (low :: rest)).map (Char.ofNat high :: ·)
  | [code] => if isHighHalf code || isLowHalf code then none else some [Char.ofNat code]

/-- The text of a list of codes, if every surrogate is paired. -/
def text? (codes : List Nat) : Option String := (joinHalves? codes).map String.ofList

def isNumberChar (c : Char) : Bool :=
  c.isDigit || c == '-' || c == '+' || c == '.' || c == 'e' || c == 'E'

/-- Whether there is at least one digit and nothing else. -/
def isDigits (cs : List Char) : Bool := !cs.isEmpty && cs.all Char.isDigit

/-- Whether the rest of a number is empty or a well-formed exponent. -/
def isExponent : List Char → Bool
  | [] => true
  | c :: rest =>
    (c == 'e' || c == 'E') &&
      match rest with
      | '+' :: digits => isDigits digits
      | '-' :: digits => isDigits digits
      | digits => isDigits digits

/-- Whether the rest of a number is a well-formed fraction and exponent. -/
def isFraction : List Char → Bool
  | '.' :: rest => isDigits (rest.takeWhile Char.isDigit) && isExponent (rest.dropWhile Char.isDigit)
  | rest => isExponent rest

/-- Whether a number without sign is well formed: no leading zeros, digits after a point, digits in
an exponent. -/
def isUnsigned (cs : List Char) : Bool :=
  let whole := cs.takeWhile Char.isDigit
  !whole.isEmpty && (whole.head? != some '0' || whole.length == 1) &&
    isFraction (cs.dropWhile Char.isDigit)

def isNumber : List Char → Bool
  | '-' :: rest => isUnsigned rest
  | cs => isUnsigned cs

mutual

/-- A value at the front of a text, and what follows it. -/
def value : (fuel : Nat) → List Char → Option (Json × List Char)
  | 0, _ => none
  | fuel + 1, cs =>
    match skipBlanks cs with
    | 'n' :: 'u' :: 'l' :: 'l' :: rest => some (.null, rest)
    | 't' :: 'r' :: 'u' :: 'e' :: rest => some (.bool true, rest)
    | 'f' :: 'a' :: 'l' :: 's' :: 'e' :: rest => some (.bool false, rest)
    | '\"' :: rest => (stringBody rest).map fun r => (.string (text? r.1), r.2)
    | '[' :: rest =>
      match skipBlanks rest with
      | ']' :: rest => some (.array [], rest)
      | rest => (items fuel rest).map fun r => (.array r.1, r.2)
    | '\x7b' :: rest =>
      match skipBlanks rest with
      | '\x7d' :: rest => some (.object [], rest)
      | rest => (fields fuel rest).map fun r => (.object r.1, r.2)
    | cs =>
      let literal := cs.takeWhile isNumberChar
      if isNumber literal then some (.number literal, cs.dropWhile isNumberChar) else none

/-- The items of a list up to its closing bracket, at least one. -/
def items : (fuel : Nat) → List Char → Option (List Json × List Char)
  | 0, _ => none
  | fuel + 1, cs => do
    let (item, rest) ← value fuel cs
    match skipBlanks rest with
    | ']' :: rest => return ([item], rest)
    | ',' :: rest =>
      let (more, rest) ← items fuel rest
      return (item :: more, rest)
    | _ => none

/-- The fields of an object up to its closing brace, at least one. -/
def fields : (fuel : Nat) → List Char → Option (List (Option String × Json) × List Char)
  | 0, _ => none
  | fuel + 1, cs =>
    match skipBlanks cs with
    | '\"' :: rest => do
      let (name, rest) ← stringBody rest
      match skipBlanks rest with
      | ':' :: rest =>
        let (field, rest) ← value fuel rest
        match skipBlanks rest with
        | '\x7d' :: rest => return ([(text? name, field)], rest)
        | ',' :: rest =>
          let (more, rest) ← fields fuel rest
          return ((text? name, field) :: more, rest)
        | _ => none
      | _ => none
    | _ => none

end

/-- The value that a text spells, with blanks around it and nothing else. Every step into a value
takes a character or ends, so twice the length of the text bounds the nesting of calls. -/
def parse? (text : String) : Option Json := do
  let cs := text.toList
  let (json, rest) ← value (2 * cs.length + 2) cs
  if (skipBlanks rest).isEmpty then return json else none

/-- A plain non-negative literal that fits a 64-bit word. -/
def toUInt64? : Json → Option UInt64
  | number literal =>
    let n := literal.foldl (fun n c => 10 * n + (c.toNat - 48)) 0
    if literal.all Char.isDigit && decide (n ≤ 0xffffffffffffffff) then some (UInt64.ofNat n) else none
  | _ => none

def toBool? : Json → Option Bool
  | bool b => some b
  | _ => none

/-- The field of an object under a name, the last one if there are several. -/
def field? (json : Json) (name : String) : Option Json :=
  match json with
  | object fields => (fields.reverse.find? (·.1 == some name)).map (·.2)
  | _ => none

/-- The values of the named settings: from an object by name, where unknown names are passed over
and a known one may occur once, or from a list by position. A setting that is not given is `none`. -/
def settings? (names : List String) : Json → Option (List (Option Json))
  | object fields =>
    if fields.all (·.1.isSome) then
      names.mapM fun name =>
        match fields.filter (·.1 == some name) with
        | [] => some none
        | [field] => some (some field.2)
        | _ => none
    else none
  | array items =>
    if items.length ≤ names.length then
      some (items.map some ++ List.replicate (names.length - items.length) none)
    else none
  | _ => none

end Json

end MeteredLedger
