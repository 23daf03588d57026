import ProvideIndex.Shell.Grammar

/-!
# The commands of a script

Lists of commands joined by operators, and the compound commands, which hold lists of their own. The
readers of tokens and of lists use each other, since a token may hold commands whose output it
stands for.
-/

namespace ProvideIndex.Shell.Grammar

/-- Commands that no function may be named after. -/
def specialNames : List String :=
  [".", ":", "break", "continue", "eval", "exec", "exit", "export", "readonly", "return", "set",
    "shift", "times", "trap", "unset"]

/-- What was read of a line: the end of the script, or its commands, if there are any. -/
inductive Line where
  | ended
  | commands (commands : Option Command)

namespace Command

def empty (line : Nat) : Command := .simple line [] [] []

def inBackground : Command → Command
  | .pipeline commands _ => .pipeline commands true
  | command => .background command

def after (done : Option Command) (next : Command) : Command :=
  match done with
  | some first => .sequence first next
  | none => next

end Command

/-- An assignment at the beginning of a word. -/
def assignment? : Word → Option (Raw × Word)
  | .literal text :: parts =>
    (Raw.assignment? text).map fun (name, value) =>
      (name, if value.isEmpty then parts else .literal value :: parts)
  | _ => none

mutual

/-- The text of a word that has no expansions. -/
def delimiterText : List Part → Raw
  | [] => []
  | part :: parts => partText part ++ delimiterText parts

def partText : Part → Raw
  | .literal text | .quoted text => text
  | .doubleQuoted parts => delimiterText parts
  | _ => []

end

def isQuotedPart : Part → Bool
  | .quoted _ | .doubleQuoted _ => true
  | _ => false

/-- A command that is being read word by word. -/
structure Simple where
  assignments : List (Raw × Word)
  words : List Word
  redirections : List Redirection

mutual

/-- Reads a token. `fuel` bounds the number of steps, here and below. -/
def token (expected : Expected) (setting : Words.Setting) : Nat → Reader Token
  | 0 => return .endOfScript
  | fuel + 1 => do
    nextToken (list false true none fuel) expected setting ((← get).rest.length + 8)
termination_by structural fuel => fuel

/-- Reads the texts after a line. -/
def readDocuments : Nat → Reader Unit
  | 0 => return
  | fuel + 1 => documents (list false true none fuel) (token .word .word fuel)
termination_by structural fuel => fuel

/--
A list of commands. `oneLine` lists end at a line end. The others pass over line ends, and once
`mayEnd` is set they end before a token that ends a list.
-/
def list (oneLine mayEnd : Bool) (done : Option Command) : Nat → Reader (Option Command)
  | 0 => return done
  | fuel + 1 => do
    let first ← token ⟨!oneLine, true, true⟩ .word fuel
    match first with
    | .newline => do
      readDocuments fuel
      return done
    | .endOfScript => do
      readDocuments fuel
      Reader.push first
      return done
    | _ =>
      Reader.push first
      if !oneLine && mayEnd && first.endsList then return done
      else
        let command ← andOr fuel
        let last ← token .word .word fuel
        let isBackground := last.isOperator .ampersand
        let command := if isBackground then Command.inBackground command else command
        let all := some (Command.after done command)
        match last with
        | .endOfScript => do
          readDocuments fuel
          Reader.push last
          return all
        | .newline => do
          if oneLine then
            readDocuments fuel
            return all
          else
            Reader.push last
            list oneLine true all fuel
        | .operator .ampersand | .operator .semicolon => list oneLine true all fuel
        | _ =>
          if oneLine then Reader.unexpected last
          else
            Reader.push last
            return all
termination_by structural fuel => fuel

def andOr : Nat → Reader Command
  | 0 => Reader.unexpected .endOfScript
  | fuel + 1 => do
    let first ← pipeline .word fuel
    moreAndOr first fuel
termination_by structural fuel => fuel

def moreAndOr (done : Command) : Nat → Reader Command
  | 0 => return done
  | fuel + 1 => do
    match ← token .word .word fuel with
    | .operator .and => do moreAndOr (.both done (← pipeline .command fuel)) fuel
    | .operator .or => do moreAndOr (.either done (← pipeline .command fuel)) fuel
    | other =>
      Reader.push other
      return done
termination_by structural fuel => fuel

def pipeline (expected : Expected) : Nat → Reader Command
  | 0 => Reader.unexpected .endOfScript
  | fuel + 1 => do
    let first ← token expected .word fuel
    let negated := first.isKeyword .negation
    if !negated then Reader.push first
    let command ← command (if negated then .keyword else .word) fuel
    let piped ←
      match ← morePiped fuel with
      | [] => pure command
      | others => pure (.pipeline (command :: others) false)
    return if negated then .negated piped else piped
termination_by structural fuel => fuel

/-- The commands after the marks of a pipe. -/
def morePiped : Nat → Reader (List Command)
  | 0 => return []
  | fuel + 1 => do
    match ← token .word .word fuel with
    | .operator .pipe => do
      let next ← command .command fuel
      return next :: (← morePiped fuel)
    | other =>
      Reader.push other
      return []
termination_by structural fuel => fuel

def command (expected : Expected) : Nat → Reader Command
  | 0 => Reader.unexpected .endOfScript
  | fuel + 1 => do
    let line := (← get).line
    match ← token expected .word fuel with
    | .keyword .if => do
      let body ← conditional fuel
      closed line body (.keyword .fi) fuel
    | .keyword .while => do
      let body ← loop false fuel
      closed line body (.keyword .done) fuel
    | .keyword .until => do
      let body ← loop true fuel
      closed line body (.keyword .done) fuel
    | .keyword .for => do
      let body ← forEach line fuel
      closed line body (.keyword .done) fuel
    | .keyword .case => do
      let body ← choose line fuel
      redirected line body fuel
    | .operator .openParenthesis => do
      let body ← list false false none fuel
      closed line (.subshell line body []) (.operator .closeParenthesis) fuel
    | .keyword .open => do
      let body ← list false false none fuel
      closed line (body.getD (Command.empty line)) (.keyword .close) fuel
    | .word word => do
      Reader.push (.word word)
      simple (← get).line ⟨[], [], []⟩ fuel
    | .redirection descriptor start => do
      Reader.push (.redirection descriptor start)
      simple (← get).line ⟨[], [], []⟩ fuel
    | other => Reader.unexpected other
termination_by structural fuel => fuel

/-- Requires the token that closes a compound command. -/
def closed (line : Nat) (body : Command) (closing : Token) : Nat → Reader Command
  | 0 => return body
  | fuel + 1 => do
    let last ← token .word .word fuel
    let isRight := match closing with
      | .keyword k => last.isKeyword k
      | .operator o => last.isOperator o
      | _ => false
    if isRight then redirected line body fuel
    else Reader.unexpectedFor last closing
termination_by structural fuel => fuel

/-- Reads the redirections after a compound command. -/
def redirected (line : Nat) (body : Command) : Nat → Reader Command
  | 0 => return body
  | fuel + 1 => do
    match ← redirections fuel with
    | [] => return body
    | redirections =>
      match body with
      | .subshell line commands _ => return .subshell line commands redirections
      | _ => return .redirected line body redirections
termination_by structural fuel => fuel

def redirections : Nat → Reader (List Redirection)
  | 0 => return []
  | fuel + 1 => do
    match ← token .keyword .word fuel with
    | .redirection descriptor start => do
      let first ← redirection descriptor start fuel
      return first :: (← redirections fuel)
    | other =>
      Reader.push other
      return []
termination_by structural fuel => fuel

/-- The word of a redirection. -/
def redirection (descriptor : Nat) (start : RedirectionStart) : Nat → Reader Redirection
  | 0 => Reader.unexpected .endOfScript
  | fuel + 1 => do
    let setting := if start matches .document _ then Words.Setting.delimiter else .word
    match ← token .word setting fuel with
    | .word word =>
      match start with
      | .file opening => return .file descriptor opening word
      | .copy => return .copy descriptor word
      | .document stripTabs =>
        let reading ← get
        let waiting : Waiting :=
          ⟨reading.nextNumber, stripTabs, word.any isQuotedPart, delimiterText word⟩
        set { reading with
          nextNumber := reading.nextNumber + 1
          waiting := reading.waiting ++ [waiting] }
        return .document descriptor reading.nextNumber
    | other => Reader.unexpected other
termination_by structural fuel => fuel

/-- The commands after `if` or `elif`, with the other branches. -/
def conditional : Nat → Reader Command
  | 0 => Reader.unexpected .endOfScript
  | fuel + 1 => do
    let test ← list false false none fuel
    let between ← token .word .word fuel
    if !between.isKeyword .then then Reader.unexpectedFor between (.keyword .then)
    else
      let thenPart ← list false false none fuel
      match ← token .word .word fuel with
      | .keyword .elif => do return .conditional test thenPart (some (← conditional fuel))
      | .keyword .else => do
        return .conditional test thenPart (← list false false none fuel)
      | other =>
        Reader.push other
        return .conditional test thenPart none
termination_by structural fuel => fuel

def loop (untilTrue : Bool) : Nat → Reader Command
  | 0 => Reader.unexpected .endOfScript
  | fuel + 1 => do
    let test ← list false false none fuel
    let between ← token .word .word fuel
    if !between.isKeyword .do then Reader.unexpectedFor between (.keyword .do)
    else return .loop untilTrue test (← list false false none fuel)
termination_by structural fuel => fuel

def forEach (line : Nat) : Nat → Reader Command
  | 0 => Reader.unexpected .endOfScript
  | fuel + 1 => do
    match ((← token .word .word fuel).plain?).filter Raw.isName with
    | none => Reader.fail "Bad for loop variable"
    | some name =>
      let next ← token .command .word fuel
      let words ←
        if next.isKeyword .in then do
          let (words, last) ← someWords fuel
          match last with
          | .newline | .operator .semicolon => pure words
          | other => Reader.unexpected other
        else
          if !next.isOperator .semicolon then Reader.push next
          pure [[.doubleQuoted [.parameter ['@'] .plain []]]]
      let between ← token .command .word fuel
      if !between.isKeyword .do then Reader.unexpectedFor between (.keyword .do)
      else return .forEach line name words (← list false false none fuel)
termination_by structural fuel => fuel

/-- Words, and the token after them. -/
def someWords : Nat → Reader (List Word × Token)
  | 0 => return ([], .endOfScript)
  | fuel + 1 => do
    match ← token .word .word fuel with
    | .word word => do
      let (words, last) ← someWords fuel
      return (word :: words, last)
    | other => return ([], other)
termination_by structural fuel => fuel

def choose (line : Nat) : Nat → Reader Command
  | 0 => Reader.unexpected .endOfScript
  | fuel + 1 => do
    match ← token .word .word fuel with
    | .word word => do
      let between ← token .command .word fuel
      if !between.isKeyword .in then Reader.unexpectedFor between (.keyword .in)
      else return .choose line word (← cases fuel)
    | other => Reader.unexpectedFor other (.word [])
termination_by structural fuel => fuel

/-- The cases up to the end of the command. -/
def cases : Nat → Reader (List (List Word × Option Command))
  | 0 => return []
  | fuel + 1 => do
    let first ← token .case .word fuel
    if first.isKeyword .esac then return []
    else
      let first ←
        if first.isOperator .openParenthesis then token .word .word fuel else pure first
      let patterns ← patterns first fuel
      let body ← list false true none fuel
      let last ← token .case .word fuel
      if last.isKeyword .esac then return [(patterns, body)]
      else if last.isOperator .endCase then return (patterns, body) :: (← cases fuel)
      else Reader.unexpectedFor last (.operator .endCase)
termination_by structural fuel => fuel

/--
The patterns of a case, with the parenthesis after them. A token that is no word stands for an empty
one.
-/
def patterns (first : Token) : Nat → Reader (List Word)
  | 0 => return []
  | fuel + 1 => do
    let pattern ←
      match first with
      | .word word => pure word
      | .keyword keyword => pure [.literal keyword.text.toList]
      | _ => pure []
    let next ← token .word .word fuel
    if next.isOperator .pipe then return pattern :: (← patterns (← token .word .word fuel) fuel)
    else if next.isOperator .closeParenthesis then return [pattern]
    else Reader.unexpectedFor next (.operator .closeParenthesis)
termination_by structural fuel => fuel

/-- A command of words, assignments and redirections, or the definition of a function. -/
def simple (line : Nat) (done : Simple) : Nat → Reader Command
  | 0 => return .simple line done.assignments done.words done.redirections
  | fuel + 1 => do
    let expected := if done.words.isEmpty then Expected.argument else .word
    match ← token expected .word fuel with
    | .word word =>
      match (if done.words.isEmpty then assignment? word else none) with
      | some assignment =>
        simple line { done with assignments := done.assignments ++ [assignment] } fuel
      | none => simple line { done with words := done.words ++ [word] } fuel
    | .redirection descriptor start => do
      let one ← redirection descriptor start fuel
      simple line { done with redirections := done.redirections ++ [one] } fuel
    | other =>
      match other, done with
      | .operator .openParenthesis, ⟨[], [word], []⟩ => do
        let next ← token .word .word fuel
        if !next.isOperator .closeParenthesis then
          Reader.unexpectedFor next (.operator .closeParenthesis)
        else
          match (Token.word word).plain? with
          | some name =>
            if Raw.isName name && !specialNames.contains (String.ofList name) then
              let line := (← get).line
              return .define line name (← command .command fuel)
            else Reader.fail "Bad function name"
          | none => Reader.fail "Bad function name"
      | _, _ =>
        Reader.push other
        return .simple line done.assignments done.words done.redirections
termination_by structural fuel => fuel

end

/-- Reads the commands of one line. -/
def line : Reader Line := do
  modify fun reading => { reading with pushed := none, waiting := [] }
  let fuel := 16 * (← get).rest.length + 64
  let commands ← list true true none fuel
  match commands, (← get).pushed with
  | none, some .endOfScript => return .ended
  | _, _ => return .commands commands

end ProvideIndex.Shell.Grammar
