import ProvideIndex.Yaml.Cursor

/-!
# Gaps between words

A gap is a run of spaces, tabs and line breaks inside a scalar. Without a line break it stands for
itself. With breaks, its blanks vanish; a single line feed becomes a space, and of more breaks the
first is dropped if it is a line feed.
-/

namespace ProvideIndex.Yaml

structure Gap where
  /-- The blanks of a gap without a line break. -/
  blanks : List Char
  breaks : List Char
  deriving DecidableEq, Repr

namespace Gap

def foldBreaks : List Char → List Char
  | '\n' :: [] => [' ']
  | '\n' :: more => more
  | breaks => breaks

def text (gap : Gap) : List Char :=
  if gap.breaks.isEmpty then gap.blanks else foldBreaks gap.breaks

/--
Reads a gap. `tabsFrom` is the least column at which a tab may stand on a line after the first; a
tab before it is refused. `fuel` bounds the number of characters.
-/
def readFrom (tabsFrom : Nat) (gap : Gap) : Nat → Cursor → Option (Gap × Cursor)
  | 0, cursor => some (gap, cursor)
  | fuel + 1, cursor =>
    match cursor.readBreak? with
    | some (c, next) => readFrom tabsFrom ⟨[], gap.breaks ++ [c]⟩ fuel next
    | none =>
      match cursor.peek 0 with
      | some c =>
        if isGap c then
          if gap.breaks.isEmpty then
            readFrom tabsFrom { gap with blanks := gap.blanks ++ [c] } fuel (cursor.advance 1)
          else if c == '\t' && cursor.column < tabsFrom then none
          else readFrom tabsFrom gap fuel (cursor.advance 1)
        else some (gap, cursor)
      | none => some (gap, cursor)

def read (tabsFrom : Nat) (cursor : Cursor) : Option (Gap × Cursor) :=
  readFrom tabsFrom ⟨[], []⟩ cursor.rest.length cursor

end Gap

end ProvideIndex.Yaml
