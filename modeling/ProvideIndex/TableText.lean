import ProvideIndex.SymbolTable

/-!
# The generated table

The text of the Go source file that holds the symbol table: a fixed opening, one map entry a line in
ascending order of symbols, and the closing brace.
-/

namespace ProvideIndex.TableText

def header : String :=
  "// DO NOT EDIT -- bazel run //language/js/closure_library:regenerate -- " ++
    "$PWD/closure_library.go\n\n"

def packageLine : String := "package closure_library\n\n"

def opening : String := "var PROVIDE_TO_TARGET = map[string]string\x7b\n"

def closing : String := "\x7d\n"

def entryLine (symbol target : String) : String :=
  "\t\"" ++ symbol ++ "\": \"" ++ target ++ "\",\n"

def entryLines : List (String × Label) → String
  | [] => ""
  | (symbol, label) :: entries => entryLine symbol label.text ++ entryLines entries

def render (table : SymbolTable) : String :=
  header ++ packageLine ++ opening ++ entryLines table.targets ++ closing

end ProvideIndex.TableText
