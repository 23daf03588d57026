import ProvideIndex.SymbolTable

/-!
# Log events

What a run reports while it works.
-/

namespace ProvideIndex

inductive Event where
  | rootWalked (root : String) (files : Nat)
  | rootAbsent (root : String)
  /-- The kind is implicit: a reader of the log tells the event by its path. -/
  | classified (path : String) {kind : Source.Kind}
  | clash (clash : Clash)
  | scanned (root : String) (files libraries symbols : Nat)
  | tableWritten (path : String) (entries : Nat)
  | formatterFailed (command : String) (exitCode : Int32) (stderr : String)
  deriving DecidableEq, Repr

namespace Event

inductive Level where
  | debug | info | warn
  deriving DecidableEq, Repr

def level : Event → Level
  | rootWalked .. | rootAbsent .. | classified .. => .debug
  | scanned .. | tableWritten .. => .info
  | clash .. | formatterFailed .. => .warn

def message : Event → String
  | rootWalked .. => "walked scan root"
  | rootAbsent .. => "optional scan root absent"
  | classified .. => "classified"
  | clash .. => "symbol provided by more than one file; keeping the later one"
  | scanned .. => "scanned source tree"
  | tableWritten .. => "wrote provide table"
  | formatterFailed .. => "canonicalizer failed"

end Event

end ProvideIndex
