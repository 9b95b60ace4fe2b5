/-!
Splitting a text at a separating character.
-/

namespace SqlMapper.Text

def split (separator : Char) : List Char → List (List Char)
  | [] => [[]]
  | c :: cs =>
    if c = separator then [] :: split separator cs
    else
      match split separator cs with
      | [] => [[c]]
      | part :: parts => (c :: part) :: parts

def before (separator : Char) (cs : List Char) : List Char :=
  cs.takeWhile (· ≠ separator)

def after? (separator : Char) (cs : List Char) : Option (List Char) :=
  match cs.dropWhile (· ≠ separator) with
  | [] => none
  | _ :: rest => some rest

end SqlMapper.Text
