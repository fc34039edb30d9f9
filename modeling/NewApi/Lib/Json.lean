import Mathlib.Data.List.Basic

/-!
# JSON

Values with numbers of a type `ν`, and a reader that keeps the texts of an array's elements, as a decoder into raw
messages does. The length of the text is always enough fuel for it.
-/

namespace NewApi

inductive Json (ν : Type) where
  | null
  | bool (b : Bool)
  | num (n : ν)
  | str (s : String)
  | arr (items : List (Json ν))
  | obj (members : List (String × Json ν))

namespace Json

variable {ν : Type}

/-- The member of an object, and `null` where there is none. -/
def get (members : List (String × Json ν)) (key : String) : Json ν := (members.lookup key).getD .null

end Json

end NewApi

namespace NewApi.JsonText

def isBlank (c : Char) : Bool := c == ' ' || c == '\t' || c == '\n' || c == '\r'

def skipBlank (cs : List Char) : List Char := cs.dropWhile isBlank

def isHex (c : Char) : Bool := c.isDigit || ('a' ≤ c && c ≤ 'f') || ('A' ≤ c && c ≤ 'F')

def skipString : List Char → Option (List Char)
  | [] => none
  | '"' :: rest => some rest
  | '\\' :: 'u' :: a :: b :: c :: d :: rest =>
    if isHex a && isHex b && isHex c && isHex d then skipString rest else none
  | '\\' :: c :: rest => if c ∈ ['"', '\\', '/', 'b', 'f', 'n', 'r', 't'] then skipString rest else none
  | c :: rest => if c.toNat < 0x20 then none else skipString rest

def skipDigits : List Char → Option (List Char)
  | c :: rest => if c.isDigit then some (rest.dropWhile Char.isDigit) else none
  | [] => none

def skipInteger : List Char → Option (List Char)
  | '0' :: rest => some rest
  | cs => skipDigits cs

def skipFraction : List Char → Option (List Char)
  | '.' :: rest => skipDigits rest
  | cs => some cs

def skipExponent : List Char → Option (List Char)
  | 'e' :: '+' :: rest | 'e' :: '-' :: rest | 'E' :: '+' :: rest | 'E' :: '-' :: rest => skipDigits rest
  | 'e' :: rest | 'E' :: rest => skipDigits rest
  | cs => some cs

def skipNumber : List Char → Option (List Char)
  | '-' :: rest => (skipInteger rest).bind skipFraction |>.bind skipExponent
  | cs => (skipInteger cs).bind skipFraction |>.bind skipExponent

mutual

def skipValue : Nat → List Char → Option (List Char)
  | 0, _ => none
  | _ + 1, [] => none
  | _ + 1, '"' :: rest => skipString rest
  | _ + 1, 't' :: 'r' :: 'u' :: 'e' :: rest => some rest
  | _ + 1, 'f' :: 'a' :: 'l' :: 's' :: 'e' :: rest => some rest
  | _ + 1, 'n' :: 'u' :: 'l' :: 'l' :: rest => some rest
  | fuel + 1, '[' :: rest =>
    match skipBlank rest with
    | ']' :: rest => some rest
    | rest => skipElements fuel rest
  | fuel + 1, '{' :: rest =>
    match skipBlank rest with
    | '}' :: rest => some rest
    | rest => skipMembers fuel rest
  | _ + 1, cs => skipNumber cs

def skipElements : Nat → List Char → Option (List Char)
  | 0, _ => none
  | fuel + 1, cs => (skipValue fuel cs).bind fun rest =>
    match skipBlank rest with
    | ',' :: rest => skipElements fuel (skipBlank rest)
    | ']' :: rest => some rest
    | _ => none

def skipMembers : Nat → List Char → Option (List Char)
  | 0, _ => none
  | fuel + 1, '"' :: cs => (skipString cs).bind fun rest =>
    match skipBlank rest with
    | ':' :: rest => (skipValue fuel (skipBlank rest)).bind fun rest =>
      match skipBlank rest with
      | ',' :: rest => skipMembers fuel (skipBlank rest)
      | '}' :: rest => some rest
      | _ => none
    | _ => none
  | _ + 1, _ => none

end

/-- As they stand in the text, and what follows. -/
def rawElements (size : Nat) : Nat → List Char → Option (List (List Char) × List Char)
  | 0, _ => none
  | fuel + 1, cs => (skipValue size cs).bind fun rest =>
    let raw := cs.take (cs.length - rest.length)
    match skipBlank rest with
    | ',' :: rest => (rawElements size fuel (skipBlank rest)).map fun found => (raw :: found.1, found.2)
    | ']' :: rest => some ([raw], rest)
    | _ => none

/-- The elements of a text that is one array and nothing else. -/
def rawArray (cs : List Char) : Option (List (List Char)) :=
  match skipBlank cs with
  | '[' :: rest =>
    let found := match skipBlank rest with
      | ']' :: rest => some ([], rest)
      | rest => rawElements (2 * cs.length + 2) (cs.length + 1) rest
    found.bind fun found => if skipBlank found.2 = [] then some found.1 else none
  | _ => none

end NewApi.JsonText
