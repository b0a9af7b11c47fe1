import TradingDesk.Http.Call
/-!
# Addresses

The part of an address that a server gets to see: the path with its query, spelled in the characters
that a request line may hold.
-/

namespace TradingDesk.Http.Address

def hexDigit (n : Nat) : Char :=
  if n < 10 then Char.ofNat (48 + n) else Char.ofNat (55 + n)

/-- A character byte by byte, each as a percent sign and two digits. -/
def percent (c : Char) : List Char :=
  (String.singleton c).toUTF8.toList.flatMap fun b =>
    ['%', hexDigit (b.toNat / 16), hexDigit (b.toNat % 16)]

/-- Whether a character is spelled out wherever it stands. -/
def isForeign (c : Char) : Bool := c.toNat ≤ 0x20 || 0x7F ≤ c.toNat

def pathChar (c : Char) : List Char :=
  if isForeign c || "\"#<>?`\x7b\x7d".toList.contains c then percent c else [c]

def queryChar (c : Char) : List Char :=
  if isForeign c || "\"#<>'".toList.contains c then percent c else [c]

/-- The segments of a path, without those that lead nowhere or back. -/
def resolve : List (List Char) → (done : List (List Char)) → List (List Char)
  | [], done => done.reverse
  | segment :: rest, done =>
    let name := String.ofList (segment.map Char.toLower)
    if ["..", ".%2e", "%2e.", "%2e%2e"].contains name then
      resolve rest (if rest.isEmpty then [] :: done.tail else done.tail)
    else if [".", "%2e"].contains name then
      resolve rest (if rest.isEmpty then [] :: done else done)
    else resolve rest (segment :: done)

def segments : List Char → List (List Char)
  | [] => [[]]
  | c :: cs =>
    match segments cs with
    | first :: rest =>
      if c = '/' ∨ c = '\\' then [] :: first :: rest else (c :: first) :: rest
    | [] => [[c]]

def endsHost (c : Char) : Bool := c == '/' || c == '\\' || c == '?' || c == '#'

/-- The characters that an address loses wherever they stand. -/
def isDropped (c : Char) : Bool := c == '\t' || c == '\n' || c == '\r'

/-- An address without the blanks and control characters around it. -/
def trimmed (cs : List Char) : List Char :=
  let isEdge (c : Char) : Bool := c.toNat ≤ 0x20
  ((cs.dropWhile isEdge).reverse.dropWhile isEdge).reverse

def afterHost (cs : List Char) : List Char :=
  let rec afterScheme : List Char → List Char
    | ':' :: '/' :: '/' :: rest => rest
    | _ :: rest => afterScheme rest
    | [] => []
  (afterScheme cs).dropWhile fun c => !endsHost c

/-- The path and the query of an address, as a request line has them. -/
def target (address : String) : String :=
  let cs := (trimmed address.toList).filter fun c => !isDropped c
  let cs := (afterHost cs).takeWhile (· != '#')
  let path := cs.takeWhile (· != '?')
  let query := cs.dropWhile (· != '?')
  let path := (resolve (segments (path.drop 1)) []).flatMap fun s => '/' :: s.flatMap pathChar
  let query := match query with
    | _ :: q => '?' :: q.flatMap queryChar
    | [] => []
  String.ofList (path ++ query)

end TradingDesk.Http.Address
