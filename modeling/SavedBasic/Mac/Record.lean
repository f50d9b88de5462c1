import SavedBasic.Mac

/-!
# Writing files of the Macintosh format

The file of a program given as lines of tokens and the names that they refer to.
-/

namespace SavedBasic.Mac

/-- A line of tokens. -/
structure Record where
  /-- the line number -/
  number : Option Nat
  /-- the number of spaces in front -/
  indent : Nat
  /-- the tokens -/
  tokens : List Token

namespace Record

/-- The bytes behind the length of a record. -/
def body (r : Record) : Bytes :=
  Bytes.ofNatBE 1 r.indent ++ (r.number.map (Bytes.ofNatBE 2)).getD [] ++
    (r.tokens.map Token.encode).flatten ++ [0]

/-- The bytes of a record. The highest bit of the length says that there is a line number. -/
def encode (r : Record) : Bytes :=
  Bytes.ofNatBE 2 ((if r.number.isSome then 0x8000 else 0) + (r.body.length + 2)) ++ r.body

end Record

/-- The records and the word behind them. -/
def encodeRecords (records : List Record) : Bytes :=
  (records.map Record.encode).flatten ++ [0, 0]

/-- The entry of a name. -/
def encodeName (name : Bytes) : Bytes :=
  Bytes.ofNatBE 1 name.length ++ name

/-- The file of records and names. -/
def encode (records : List Record) (names : List Bytes) : Bytes :=
  let front := UInt8.ofNat mark :: encodeRecords records
  front ++ List.replicate (namesStart front.length - front.length) 0 ++ (names.map encodeName).flatten

end SavedBasic.Mac
