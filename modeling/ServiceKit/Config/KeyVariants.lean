import ServiceKit.Text.Case

/-!
The keys that the name of a variable may stand for. An underscore in the name may divide two levels
of settings or be part of a key.
-/

namespace ServiceKit.Config

/-- Every way to cut a list into two that are not empty, the shortest head first. -/
def cuts {α : Type} : List α → List (List α × List α)
  | [] => []
  | [_] => []
  | x :: xs => ([x], xs) :: (cuts xs).map fun (head, tail) => (x :: head, tail)

/-- Of equal texts only the first stays. -/
def removeDuplicates (items : List Text) : List Text := items.eraseDups

/-- The key that has a point at one place only. -/
def dividedKey (parts : List Text × List Text) : Text :=
  Text.join [0x5F] parts.1 ++ 0x2E :: Text.join [0x5F] parts.2

/-- The keys of a name: with no underscore, all underscores, or exactly one of them read as a
point. -/
def keyVariants (name : Text) : List Text :=
  let key := name.lower
  match Text.split 0x5F key with
  | [] => [key]
  | [_] => [key]
  | parts => removeDuplicates (key :: key.swap 0x5F 0x2E :: (cuts parts).map dividedKey)

end ServiceKit.Config
