import ProvideIndex.Yaml.ScalarText

/-!
# Writing data values

A value is written in block style. A list that is the value of a key begins in the column of the
key, any other part of a collection two columns deeper; after a dash, or after the marks of a long
key, a collection goes on in the same line.
-/

namespace ProvideIndex.Yaml

namespace Write

open ScalarText (spaces)

/-- A value that takes no lines of its own, up to the end of its last line. -/
def leaf (column : Nat) : Value → List Char
  | .null => "null\n".toList
  | .bool b => (toString b).toList ++ ['\n']
  | .number (.whole n) => (toString n.val).toList ++ ['\n']
  | .number (.float x) => x.text .plain ++ ['\n']
  | .string text => ScalarText.writeLine column text.toList
  | .list _ => "[]\n".toList
  | .object _ => "\x7b\x7d\n".toList

mutual

/-- A value after a mark in a column; the first line goes on after the mark. -/
def afterMark (column : Nat) : Value → List Char
  | .list (item :: items) => (listItems (column + 2) (item :: items)).drop (column + 1)
  | .object (field :: fields) => (entries (column + 2) (field :: fields)).drop (column + 1)
  | value => ' ' :: leaf column value

/-- A value after a key in a column. -/
def afterKey (column : Nat) : Value → List Char
  | .list (item :: items) => '\n' :: listItems column (item :: items)
  | .object (field :: fields) => '\n' :: entries (column + 2) (field :: fields)
  | value => ' ' :: leaf column value

def listItems (column : Nat) : List Value → List Char
  | [] => []
  | item :: items => spaces column ++ '-' :: afterMark column item ++ listItems column items

def entries (column : Nat) : List (String × Value) → List Char
  | [] => []
  | (key, value) :: fields =>
    let entry :=
      if ScalarText.isSimpleKey key then
        ScalarText.write column key.toList ++ ':' :: afterKey column value
      else
        '?' :: ' ' :: ScalarText.writeLine column key.toList ++ spaces column ++
          ':' :: afterMark column value
    spaces column ++ entry ++ entries column fields

end

end Write

/-- The text of a document that holds a record of these fields, in their order. -/
def writeRecord (fields : List (String × Value)) : String :=
  String.ofList (Write.entries 0 fields)

end ProvideIndex.Yaml
