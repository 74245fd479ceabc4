import VirtualChime.Bytes
import VirtualChime.Library.Binary64
import VirtualChime.Library.KeyMap

/-!
# The web daemon's JSON

`json.cpp`: the recursive-descent parser behind `ParseJson`, with the texts of its
errors, and the string and number encoders of the responses.  A position of the
parser is the text that is left from it on.  `std::strtod` is exact decimal reading
followed by rounding to the nearest double; a double is represented by its value.
-/

namespace VirtualChime.Webd

/-! ## 1. Values -/

inductive JsonValue where
  | null
  | bool (value : Bool)
  | number (value : ℚ)
  | string (value : Bytes)
  | array (items : List JsonValue)
  | object (items : List (Bytes × JsonValue))

/-- The order of `std::string`: that of the bytes as unsigned numbers. -/
def keyBefore (a b : Bytes) : Bool := decide (a < b)

/-- A `std::map` after these assignments, in this order. -/
def JsonValue.ofMembers (members : List (Bytes × JsonValue)) : JsonValue :=
  .object (KeyMap.ofList keyBefore members)

def getObjectField (value : JsonValue) (key : Bytes) : Option JsonValue :=
  match value with
  | .object items => KeyMap.get key items
  | _ => none

/-! ## 2. The C library -/

def hexValue (ds : Bytes) : Nat := ds.foldl (fun n d => 16 * n + (hexDigit d).getD 0) 0

def isHexDigit (c : Byte) : Bool := (hexDigit c).isSome

/-- `strtol` in base 16 skips a prefix `0x` where a digit follows it. -/
def dropHexPrefix : Bytes → Bytes
  | 48 :: x :: c :: rest =>
      if (x = 120 ∨ x = 88) ∧ isHexDigit c = true then c :: rest else 48 :: x :: c :: rest
  | s => s

/-- `std::strtol(s.c_str(), &end, 16)`: the value, saturated, and the text at `end`. -/
def strtolHex (s : Bytes) : Int × Bytes :=
  let text := cStr s
  let (negative, unsigned) := splitSign (text.dropWhile isSpace)
  let prefixed := dropHexPrefix unsigned
  let digits := prefixed.takeWhile isHexDigit
  if digits.isEmpty then (0, text)
  else
    let value : Int := hexValue digits
    (max longMin (min longMax (if negative then -value else value)), prefixed.drop digits.length)

/-- The digits after a decimal point, and what follows them. -/
def splitFraction : Bytes → Bytes × Bytes
  | 46 :: rest => (rest.takeWhile isDigit, rest.dropWhile isDigit)
  | s => ([], s)

/-- The exponent `strtod` reads, and what follows it: none without a digit. -/
def splitExponent : Bytes → Int × Bytes
  | [] => (0, [])
  | c :: rest =>
      if c = 101 ∨ c = 69 then
        let (negative, unsigned) := splitSign rest
        let digits := unsigned.takeWhile isDigit
        if digits.isEmpty then (0, c :: rest)
        else (if negative then -digitsValue digits else digitsValue digits,
          unsigned.dropWhile isDigit)
      else (0, c :: rest)

/-- `std::strtod(s.c_str(), &end)` in the C locale on decimal text: the value, none if it is
infinite, and the text at `end`.  The other forms (`inf`, `nan`, `0x`) begin with no token of the
parser. -/
def strtod (s : Bytes) : Option ℚ × Bytes :=
  let text := cStr s
  let (negative, unsigned) := splitSign (text.dropWhile isSpace)
  let whole := unsigned.takeWhile isDigit
  let (fraction, rest) := splitFraction (unsigned.dropWhile isDigit)
  let digits := whole ++ fraction
  if digits.isEmpty then (some 0, text)
  else
    let (exponent, rest) := splitExponent rest
    let magnitude : ℚ := digitsValue digits * 10 ^ (exponent - (fraction.length : Int))
    (Binary64.round (if negative then -magnitude else magnitude), rest)

/-! ## 3. The parser -/

/-- A result and the text left, or the error. -/
abbrev Parsed (α : Type) := Except Bytes (α × Bytes)

def isWhitespace (c : Byte) : Bool := c == 32 || c == 10 || c == 13 || c == 9

def skipWhitespace (s : Bytes) : Bytes := s.dropWhile isWhitespace

/-- The escapes of one letter of `ParseString`. -/
def escapedByte (esc : Byte) : Option Byte :=
  match esc with
  | 34 | 92 | 47 => some esc
  | 98 => some 8
  | 102 => some 12
  | 110 => some 10
  | 114 => some 13
  | 116 => some 9
  | _ => none

/-- The byte the four bytes after `\u` give: a question mark from `0x80` on. -/
def unicodeEscape (hex : Bytes) : Option Byte :=
  let (code, rest) := strtolHex hex
  if rest ≠ [] ∨ code < 0 then none
  else some (if code < 128 then UInt8.ofNat code.toNat else 63)

def push (c : Byte) (parsed : Parsed Bytes) : Parsed Bytes :=
  parsed.map fun result => (c :: result.1, result.2)

/-- The loop of `ParseString`, after the opening quote. -/
def parseStringLoop : Bytes → Parsed Bytes
  | [] => .error (bytes "unterminated string")
  | c :: rest =>
      if c = 34 then .ok ([], rest)
      else if c = 92 then
        match rest with
        | [] => .error (bytes "invalid escape")
        | esc :: rest =>
            match escapedByte esc with
            | some byte => push byte (parseStringLoop rest)
            | none =>
                if esc = 117 then
                  match rest with
                  | d₁ :: d₂ :: d₃ :: d₄ :: rest =>
                      match unicodeEscape [d₁, d₂, d₃, d₄] with
                      | some byte => push byte (parseStringLoop rest)
                      | none => .error (bytes "invalid unicode escape")
                  | _ => .error (bytes "invalid unicode escape")
                else .error (bytes "unsupported escape sequence")
      else if c.toNat < 32 then .error (bytes "control character in string")
      else push c (parseStringLoop rest)

def parseString (s : Bytes) : Parsed Bytes :=
  match s with
  | 34 :: rest => parseStringLoop rest
  | _ => .error (bytes "expected string")

def startsDigit (s : Bytes) : Bool := (s.head?.map isDigit).getD false

/-- The whole part of a number: what is left after it. -/
def scanWhole (s : Bytes) : Option Bytes :=
  if s.head? = some 48 then some s.tail
  else if startsDigit s then some (s.dropWhile isDigit)
  else none

def scanFraction (s : Bytes) : Option Bytes :=
  if s.head? = some 46 then
    if startsDigit s.tail then some (s.tail.dropWhile isDigit) else none
  else some s

def scanExponent (s : Bytes) : Option Bytes :=
  if s.head? = some 101 ∨ s.head? = some 69 then
    let rest := if s.tail.head? = some 43 ∨ s.tail.head? = some 45 then s.tail.tail else s.tail
    if startsDigit rest then some (rest.dropWhile isDigit) else none
  else some s

/-- What `ParseNumber` leaves of the text after the token. -/
def scanNumber (s : Bytes) : Option Bytes :=
  (scanWhole (if s.head? = some 45 then s.tail else s)).bind fun rest =>
    (scanFraction rest).bind scanExponent

def parseNumber (s : Bytes) : Parsed ℚ :=
  match scanNumber s with
  | none => .error (bytes "invalid number")
  | some rest =>
      match strtod (s.take (s.length - rest.length)) with
      | (some value, []) => .ok (value, rest)
      | _ => .error (bytes "invalid number")

def parseLiteral (literal : Bytes) (value : JsonValue) (s : Bytes) : Parsed JsonValue :=
  if s.length < literal.length then .error (bytes "unexpected end of json")
  else if s.take literal.length ≠ literal then .error (bytes "invalid literal")
  else .ok (value, s.drop literal.length)

/-- `ParseObject` after the brace; `members` is its loop. -/
def parseObject (members : Bytes → Parsed JsonValue) (s : Bytes) : Parsed JsonValue :=
  let rest := skipWhitespace s
  if rest.head? = some 125 then .ok (JsonValue.ofMembers [], rest.tail) else members rest

/-- `ParseArray` after the bracket; `items` is its loop. -/
def parseArray (items : Bytes → Parsed JsonValue) (s : Bytes) : Parsed JsonValue :=
  let rest := skipWhitespace s
  if rest.head? = some 93 then .ok (.array [], rest.tail) else items rest

mutual

/-- `ParseValue`.  Two calls consume at least a byte, so that no run ends for lack of the fuel that
`ParseJson` starts with. -/
def parseValue : Nat → Bytes → Parsed JsonValue
  | 0, _ => .error (bytes "unexpected end of json")
  | _ + 1, [] => .error (bytes "unexpected end of json")
  | fuel + 1, c :: rest =>
      if c = 123 then parseObject (parseMembers fuel []) rest
      else if c = 91 then parseArray (parseItems fuel []) rest
      else if c = 34 then
        (parseString (c :: rest)).map fun result => (.string result.1, result.2)
      else if c = 116 then parseLiteral (bytes "true") (.bool true) (c :: rest)
      else if c = 102 then parseLiteral (bytes "false") (.bool false) (c :: rest)
      else if c = 110 then parseLiteral (bytes "null") .null (c :: rest)
      else if c = 45 ∨ isDigit c = true then
        (parseNumber (c :: rest)).map fun result => (.number result.1, result.2)
      else .error (bytes "unexpected token")

/-- The loop of `ParseObject`, with the members read so far. -/
def parseMembers : Nat → List (Bytes × JsonValue) → Bytes → Parsed JsonValue
  | 0, _, _ => .error (bytes "unterminated object")
  | _ + 1, _, [] => .error (bytes "unterminated object")
  | fuel + 1, members, c :: rest =>
      match parseString (c :: rest) with
      | .error error => .error error
      | .ok (key, rest) =>
          let rest := skipWhitespace rest
          if rest.head? ≠ some 58 then .error (bytes "expected ':' in object")
          else
            match parseValue fuel (skipWhitespace rest.tail) with
            | .error error => .error error
            | .ok (parsed, rest) =>
                let members := members ++ [(key, parsed)]
                match skipWhitespace rest with
                | [] => .error (bytes "unterminated object")
                | c :: rest =>
                    if c = 125 then .ok (JsonValue.ofMembers members, rest)
                    else if c ≠ 44 then .error (bytes "expected ',' in object")
                    else parseMembers fuel members (skipWhitespace rest)

/-- The loop of `ParseArray`, with the items read so far. -/
def parseItems : Nat → List JsonValue → Bytes → Parsed JsonValue
  | 0, _, _ => .error (bytes "unterminated array")
  | _ + 1, _, [] => .error (bytes "unterminated array")
  | fuel + 1, items, c :: rest =>
      match parseValue fuel (c :: rest) with
      | .error error => .error error
      | .ok (parsed, rest) =>
          let items := items ++ [parsed]
          match skipWhitespace rest with
          | [] => .error (bytes "unterminated array")
          | c :: rest =>
              if c = 93 then .ok (.array items, rest)
              else if c ≠ 44 then .error (bytes "expected ',' in array")
              else parseItems fuel items (skipWhitespace rest)

end

def parseJson (input : Bytes) : Except Bytes JsonValue :=
  match parseValue (2 * input.length + 1) (skipWhitespace input) with
  | .error error => .error (if error.isEmpty then bytes "invalid json" else error)
  | .ok (value, rest) =>
      if (skipWhitespace rest).isEmpty then .ok value
      else .error (bytes "unexpected trailing characters")

/-! ## 4. The encoders -/

/-- One byte of `JsonEscape`'s loop. -/
def escapeByte (c : Byte) : Bytes :=
  match c with
  | 34 => [92, 34]
  | 92 => [92, 92]
  | 8 => [92, 98]
  | 12 => [92, 102]
  | 10 => [92, 110]
  | 13 => [92, 114]
  | 9 => [92, 116]
  | _ => if c.toNat < 32 then [63] else [c]

def jsonEscape (input : Bytes) : Bytes := input.flatMap escapeByte

def jsonString (input : Bytes) : Bytes := 34 :: (jsonEscape input ++ [34])

def jsonBool (value : Bool) : Bytes := if value then bytes "true" else bytes "false"

def jsonNumber (value : Int) : Bytes := toDecimal value

end VirtualChime.Webd
