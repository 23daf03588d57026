import ProvideIndex.Yaml.Tag
import ProvideIndex.Yaml.Token

/-!
# Directives

A line before a document that begins with a percent sign: the version of the format, or what a tag
handle stands for. No other directive is known.
-/

namespace ProvideIndex.Yaml.Directive

/-- A number of at most nine digits. -/
def number? (cursor : Cursor) : Option (Nat × Cursor) :=
  let (digits, next) := cursor.takeRun Char.isDigit
  if digits.isEmpty || digits.length > 9 then none
  else some (Text.natural digits, next)

def version? (cursor : Cursor) : Option (Token × Cursor) := do
  let (major, point) ← number? (cursor.skipRun isGap)
  if point.peek 0 != some '.' then none
  else
    let (minor, next) ← number? (point.advance 1)
    return (.version major minor, next)

def tagHandle? (cursor : Cursor) : Option (Token × Cursor) := do
  let (handle, gap) ← Tag.handle? (cursor.skipRun isGap)
  let closed := handle.length == 1 || handle.getLast? == some '!'
  if !closed || !(gap.peek 0).any isGap then none
  else
    let (form, next) ← Tag.uri? true (gap.skipRun isGap)
    if form.isEmpty || !isGapOrEnd (next.peek 0) then none
    else some (.tagHandle handle (Tag.upToZero form), next)

/-- Reads a directive with the line break after it. -/
def read? (cursor : Cursor) : Option (Token × Cursor) := do
  let (name, afterName) := (cursor.advance 1).takeRun isNameChar
  if !isGapOrEnd (afterName.peek 0) then none
  else
    let (token, after) ←
      if name == "YAML".toList then version? afterName
      else if name == "TAG".toList then tagHandle? afterName
      else none
    let blanks := after.skipRun isGap
    let comment := if blanks.peek 0 == some '#' then blanks.skipRun (!isBreak ·) else blanks
    if isBreakOrEnd (comment.peek 0) then some (token, comment.skipBreak) else none

end ProvideIndex.Yaml.Directive
