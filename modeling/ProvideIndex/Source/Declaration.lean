import ProvideIndex.Text.Match
import ProvideIndex.Text.Ascending

/-!
# Declarations in a source text

A declaration is a call at the start of a line whose argument is a quoted symbol. `provides` lists
the symbols that a text declares, in the order of the text, and `requires` those that it asks for,
in ascending order. Reading goes from left to right, and what a declaration covers is not read
again.
-/

namespace ProvideIndex.Source

def isQuote (c : Char) : Bool := c == '\x27' || c == '\x22'

/-- The longest run of characters other than quotes, after a quote; it must not be empty. -/
def quotedSymbol? : List Char → Option (List Char)
  | [] => none
  | c :: text =>
    let symbol := text.takeWhile fun x => !isQuote x
    if isQuote c && !symbol.isEmpty then some symbol else none

/-- A declaration: its symbol, and how many characters it covers up to the end of the symbol. -/
structure Site where
  symbol : List Char
  length : Nat
  deriving DecidableEq, Repr

/-- A call of `name`, given up to its opening parenthesis, with a quoted symbol. -/
def callAt? (name text : List Char) : Option Site := do
  let argument ← Text.after? name text
  let symbol ← quotedSymbol? argument
  return ⟨symbol, name.length + 1 + symbol.length⟩

def provideName : List Char := "goog.provide(".toList
def moduleName : List Char := "goog.module(".toList
def requireName : List Char := "goog.require(".toList
def assignment : List Char := " = ".toList

def provideAt? (text : List Char) : Option Site :=
  callAt? provideName text <|> callAt? moduleName text

/--
The last place on the first line of the text where an assignment is followed by a call of
`requireName`. The length counts from the start of the text.
-/
def lastAssigned? : List Char → Option Site
  | [] => none
  | c :: text =>
    if c == '\n' then none
    else
      match lastAssigned? text with
      | some site => some { site with length := site.length + 1 }
      | none => do
        let call ← Text.after? assignment (c :: text)
        let site ← callAt? requireName call
        return { site with length := site.length + assignment.length }

/-- A binding of a constant or a variable, on one line, to the result of a call. -/
def bindingAt? (keyword text : List Char) : Option Site := do
  let rest ← Text.after? keyword text
  let site ← lastAssigned? rest
  return { site with length := site.length + keyword.length }

def requireAt? (text : List Char) : Option Site :=
  bindingAt? "const ".toList text <|> bindingAt? "var ".toList text <|> callAt? requireName text

/--
The declarations at the line starts of a text. The first `skip` characters are covered by an earlier
declaration, and `lineStart` says whether the text begins a line.
-/
def sitesFrom (siteAt? : List Char → Option Site) (skip : Nat) (lineStart : Bool) :
    List Char → List Site
  | [] => []
  | c :: text =>
    match skip with
    | skip + 1 => sitesFrom siteAt? skip (c == '\n') text
    | 0 =>
      if lineStart then
        match siteAt? (c :: text) with
        | some site => site :: sitesFrom siteAt? (site.length - 1) (c == '\n') text
        | none => sitesFrom siteAt? 0 (c == '\n') text
      else sitesFrom siteAt? 0 (c == '\n') text

def sites (siteAt? : List Char → Option Site) (text : List Char) : List Site :=
  sitesFrom siteAt? 0 true text

def provides (content : String) : List String :=
  (sites provideAt? content.toList).map fun site => String.ofList site.symbol

def requires (content : String) : List String :=
  Text.ascending ((sites requireAt? content.toList).map fun site => String.ofList site.symbol)

end ProvideIndex.Source
