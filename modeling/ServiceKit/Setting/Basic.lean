import ServiceKit.Number.Numeral
import ServiceKit.Timestamp
import ServiceKit.Text.Keyed

/-!
Values of settings as files and variables give them, before anything is known of their use.
-/

namespace ServiceKit

inductive Setting where
  | null
  | bool (b : Bool)
  /-- An integer of 64 bits; one that does not fit with a sign has none. -/
  | int (i : Int)
  | float (x : Number.Binary64)
  | string (s : Text)
  | time (t : Timestamp)
  | list (items : List Setting)
  | map (entries : List (Text × Setting))
  /-- A map whose keys are not all texts. -/
  | table (entries : List (Setting × Setting))
deriving Repr, Inhabited

namespace Setting

open Number

/-- Is a setting an integer that needs all 64 bits for its value? -/
def isWide (i : Int) : Bool := (pow2 63 : Int) ≤ i

def kindName : Setting → Text
  | null => utf8 "invalid"
  | bool _ => utf8 "bool"
  | int i => if isWide i then utf8 "uint64" else utf8 "int"
  | float _ => utf8 "float64"
  | string _ => utf8 "string"
  | time _ => utf8 "struct"
  | list _ => utf8 "slice"
  | map _ => utf8 "map"
  | table _ => utf8 "map"

def typeName : Setting → Text
  | null => utf8 "<nil>"
  | bool _ => utf8 "bool"
  | int i => if isWide i then utf8 "uint64" else utf8 "int"
  | float _ => utf8 "float64"
  | string _ => utf8 "string"
  | time _ => utf8 "time.Time"
  | list _ => utf8 "[]interface \x7b\x7d"
  | map _ => utf8 "map[string]interface \x7b\x7d"
  | table _ => utf8 "map[interface \x7b\x7d]interface \x7b\x7d"

/-- The place of a kind of key among the kinds. -/
def keyRank : Setting → Nat
  | null => 0
  | bool _ => 1
  | int i => if isWide i then 3 else 2
  | float _ => 4
  | string _ => 5
  | time _ => 6
  | _ => 7

/-- The order in which keys are listed: by kind, and within a kind by value. -/
def keyLe (a b : Setting) : Bool :=
  match a, b with
  | bool x, bool y => !x || y
  | int i, int j => i ≤ j
  | float x, float y => x.le y
  | string s, string t => s.le t
  | time t, time u => t.le u
  | a, b => keyRank a ≤ keyRank b

/-- An entry put in front of the first one whose key comes later. -/
def insertByKey {α : Type} (e : Setting × α) : List (Setting × α) → List (Setting × α)
  | [] => [e]
  | f :: es => if keyLe f.1 e.1 then f :: insertByKey e es else e :: f :: es

/-- What is listed for the entries of a table, in the order of their keys. -/
def inKeyOrder {α : Type} (es : List (Setting × α)) : List α :=
  (es.foldl (fun acc e => insertByKey e acc) []).map Prod.snd

mutual

def messageText : Setting → Text
  | null => utf8 "<nil>"
  | bool true => utf8 "true"
  | bool false => utf8 "false"
  | int i => integer i
  | float x => Layout.message.write x
  | string s => s
  | time t => t.messageText
  | list xs => 0x5B :: Text.join [0x20] (messageItems xs) ++ [0x5D]
  | map es => utf8 "map[" ++ Text.join [0x20] (messageEntries es) ++ [0x5D]
  | table es => utf8 "map[" ++ Text.join [0x20] (inKeyOrder (messagePairs es)) ++ [0x5D]

def messageItems : List Setting → List Text
  | [] => []
  | x :: xs => messageText x :: messageItems xs

def messageEntries : List (Text × Setting) → List Text
  | [] => []
  | (k, x) :: es => (k ++ 0x3A :: messageText x) :: messageEntries es

def messagePairs : List (Setting × Setting) → List (Setting × Text)
  | [] => []
  | (k, x) :: es => (k, messageText k ++ 0x3A :: messageText x) :: messagePairs es

end

mutual

def expressionText : Setting → Text
  | null => utf8 "interface \x7b\x7d(nil)"
  | bool true => utf8 "true"
  | bool false => utf8 "false"
  | int i => if isWide i then utf8 "0x" ++ hexadecimal i.toNat else integer i
  | float x => Layout.message.write x
  | string s => s.quoted
  | time t => t.expressionText
  | list xs => utf8 "[]interface \x7b\x7d" ++ 0x7B :: Text.join (utf8 ", ") (expressionItems xs) ++ [0x7D]
  | map es =>
    utf8 "map[string]interface \x7b\x7d" ++ 0x7B :: Text.join (utf8 ", ") (expressionEntries es) ++ [0x7D]
  | table es =>
    utf8 "map[interface \x7b\x7d]interface \x7b\x7d"
      ++ 0x7B :: Text.join (utf8 ", ") (inKeyOrder (expressionPairs es)) ++ [0x7D]

def expressionItems : List Setting → List Text
  | [] => []
  | x :: xs => expressionText x :: expressionItems xs

def expressionEntries : List (Text × Setting) → List Text
  | [] => []
  | (k, x) :: es => (k.quoted ++ 0x3A :: expressionText x) :: expressionEntries es

def expressionPairs : List (Setting × Setting) → List (Setting × Text)
  | [] => []
  | (k, x) :: es => (k, expressionText k ++ 0x3A :: expressionText x) :: expressionPairs es

end

/-- A setting as a text of its own, where one is wanted: nothing for what has no such text. -/
def plainText? : Setting → Option Text
  | null => some []
  | bool true => some (utf8 "true")
  | bool false => some (utf8 "false")
  | int i => some (integer i)
  | float x => some (Layout.plain.write x)
  | string s => some s
  | time t => some t.messageText
  | _ => none

end Setting

end ServiceKit
