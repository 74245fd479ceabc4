import Mathlib.Tactic

/-!
# The words of a shell command

Token recognition of the POSIX shell: blanks and operators end a word, a backslash and the
two kinds of quotes quote, and a dollar or a backquote that is not quoted by a backslash or
by single quotes starts an expansion.  The lexer reads one byte after the other; aliases and
the bodies of here-documents are left out.
-/

namespace PosixShell

/-! ## 1. Tokens -/

/-- The bytes of a word, each with whether it was quoted. -/
abbrev Word := List (UInt8 × Bool)

inductive Token where
  | word (w : Word)
  | ioNumber (digits : List UInt8)
  | operator (op : List UInt8)
deriving DecidableEq, Repr

/-- Why an input has no tokens of its own. -/
inductive Trouble where
  | expansion
  | unterminated
deriving DecidableEq, Repr

def ofString (s : String) : List UInt8 := s.toList.map fun c => UInt8.ofNat c.toNat

/-- The operators: those of control first, a newline among them, then those of redirection. -/
def controlOperators : List (List UInt8) :=
  [[10], ofString "&", ofString "&&", ofString "(", ofString ")", ofString ";", ofString ";;",
    ofString "|", ofString "||"]

def redirectOperators : List (List UInt8) :=
  [ofString "<", ofString ">", ofString ">|", ofString "<<", ofString ">>", ofString "<&",
    ofString ">&", ofString "<<-", ofString "<>"]

def isOperator (op : List UInt8) : Bool :=
  controlOperators.contains op || redirectOperators.contains op

def isBlank (c : UInt8) : Bool := c == 32 || c == 9

def isDigit (c : UInt8) : Bool := decide (48 ≤ c.toNat) && decide (c.toNat ≤ 57)

/-! ## 2. The lexer -/

/-- What has been read of a token; a word that has only just been quoted may still be empty. -/
inductive Mode where
  | between
  | operator (op : List UInt8)
  | comment
  | word (w : Word)
  | escaped (w : Option Word)
  | doubleQuoted (w : Word)
  | doubleQuotedEscaped (w : Word)
  | singleQuoted (w : Word)
deriving DecidableEq, Repr

abbrev Step := Except Trouble (List Token × Mode)

/-- The token that a word is when an operator follows it. -/
def beforeOperator (w : Word) (c : UInt8) : Token :=
  if (c == 60 || c == 62) && !w.isEmpty && w.all (fun p => !p.2 && isDigit p.1) then
    .ioNumber (w.map Prod.fst)
  else .word w

/-- A byte that is not part of a token before it. -/
def start (c : UInt8) : Step :=
  if isBlank c then .ok ([], .between)
  else if isOperator [c] then .ok ([], .operator [c])
  else if c = 35 then .ok ([], .comment)
  else if c = 92 then .ok ([], .escaped none)
  else if c = 34 then .ok ([], .doubleQuoted [])
  else if c = 39 then .ok ([], .singleQuoted [])
  else if c = 36 ∨ c = 96 then .error .expansion
  else .ok ([], .word [(c, false)])

/-- A byte inside a word. -/
def more (w : Word) (c : UInt8) : Step :=
  if isBlank c then .ok ([.word w], .between)
  else if isOperator [c] then .ok ([beforeOperator w c], .operator [c])
  else if c = 92 then .ok ([], .escaped (some w))
  else if c = 34 then .ok ([], .doubleQuoted w)
  else if c = 39 then .ok ([], .singleQuoted w)
  else if c = 36 ∨ c = 96 then .error .expansion
  else .ok ([], .word (w ++ [(c, false)]))

/-- The bytes that a backslash quotes between double quotes, a newline apart. -/
def isSpecial (c : UInt8) : Bool := c == 34 || c == 92 || c == 36 || c == 96

def step : Mode → UInt8 → Step
  | .between, c => start c
  | .operator op, c =>
      if isOperator (op ++ [c]) then .ok ([], .operator (op ++ [c]))
      else do
        let (tokens, mode) ← start c
        return (.operator op :: tokens, mode)
  | .comment, c => if c = 10 then start c else .ok ([], .comment)
  | .word w, c => more w c
  | .escaped w, c =>
      -- a backslash and a newline are no part of any word
      if c = 10 then .ok ([], match w with | some w => .word w | none => .between)
      else .ok ([], .word (w.getD [] ++ [(c, true)]))
  | .doubleQuoted w, c =>
      if c = 34 then .ok ([], .word w)
      else if c = 92 then .ok ([], .doubleQuotedEscaped w)
      else if c = 36 ∨ c = 96 then .error .expansion
      else .ok ([], .doubleQuoted (w ++ [(c, true)]))
  | .doubleQuotedEscaped w, c =>
      if c = 10 then .ok ([], .doubleQuoted w)
      else if isSpecial c then .ok ([], .doubleQuoted (w ++ [(c, true)]))
      else .ok ([], .doubleQuoted (w ++ [(92, true), (c, true)]))
  | .singleQuoted w, c =>
      if c = 39 then .ok ([], .word w) else .ok ([], .singleQuoted (w ++ [(c, true)]))

/-- What the end of the input makes of a mode. -/
def finish : Mode → Except Trouble (List Token)
  | .between => .ok []
  | .comment => .ok []
  | .operator op => .ok [.operator op]
  | .word w => .ok [.word w]
  | .escaped w => .ok [.word (w.getD [] ++ [(92, false)])]
  | .doubleQuoted _ => .error .unterminated
  | .doubleQuotedEscaped _ => .error .unterminated
  | .singleQuoted _ => .error .unterminated

/-- The tokens that some input ends, and what has been read of the next one. -/
def run : Mode → List UInt8 → Step
  | mode, [] => .ok ([], mode)
  | mode, c :: input => do
      let (tokens, mode) ← step mode c
      let (rest, mode) ← run mode input
      return (tokens ++ rest, mode)

def lex (input : List UInt8) : Except Trouble (List Token) := do
  let (tokens, mode) ← run .between input
  let rest ← finish mode
  return tokens ++ rest

theorem run_append {mode mode' : Mode} {tokens : List Token} {input : List UInt8}
    (h : run mode input = .ok (tokens, mode')) {mode'' : Mode} {tokens' : List Token}
    {input' : List UInt8} (h' : run mode' input' = .ok (tokens', mode'')) :
    run mode (input ++ input') = .ok (tokens ++ tokens', mode'') := by
  induction input generalizing mode tokens with
  | nil =>
    obtain ⟨rfl, rfl⟩ := Prod.mk.inj (Except.ok.inj h)
    exact h'
  | cons c input ih =>
    rw [run] at h
    rw [List.cons_append, run]
    cases hstep : step mode c with
    | error trouble =>
      rw [hstep] at h
      cases h
    | ok next =>
      obtain ⟨ended, next⟩ := next
      rw [hstep] at h
      cases hrun : run next input with
      | error trouble =>
        simp only [bind, Except.bind, hrun] at h
        cases h
      | ok last =>
        obtain ⟨rest, last⟩ := last
        simp only [bind, Except.bind, hrun] at h
        obtain ⟨rfl, rfl⟩ := Prod.mk.inj (Except.ok.inj h)
        simp only [bind, Except.bind, ih hrun, pure, Except.pure, List.append_assoc]

/-! ## 3. Simple commands -/

/-- One command: its words, and its redirections, each with its number if it has one. -/
structure SimpleCommand where
  words : List (List UInt8) := []
  redirects : List (Option (List UInt8) × List UInt8 × List UInt8) := []
deriving DecidableEq, Repr

/-- The bytes that a word stands for where no expansion of patterns or tildes and no assignment can
change it. -/
def literal (w : Word) : Option (List UInt8) :=
  if w.any (fun p => !p.2 && (ofString "~*?[=").contains p.1) then none else some (w.map Prod.fst)

/-- The tokens of one command and no other. -/
def simpleCommand : List Token → Option SimpleCommand
  | [] => some {}
  | .word w :: tokens => do
      let text ← literal w
      let command ← simpleCommand tokens
      return { command with words := text :: command.words }
  | .operator op :: .word w :: tokens => do
      let text ← literal w
      let command ← simpleCommand tokens
      if redirectOperators.contains op then
        return { command with redirects := (none, op, text) :: command.redirects }
      else none
  | .ioNumber digits :: .operator op :: .word w :: tokens => do
      let text ← literal w
      let command ← simpleCommand tokens
      if redirectOperators.contains op then
        return { command with redirects := (some digits, op, text) :: command.redirects }
      else none
  | _ => none

/-! ## 4. Quoting -/

/-- Some bytes as they are written between double quotes. -/
def escape (text : List UInt8) : List UInt8 :=
  text.flatMap fun c => if isSpecial c then [92, c] else [c]

def quotedWord (text : List UInt8) : Word := text.map fun c => (c, true)

theorem run_of_step {mode mode' : Mode} {c : UInt8} {tokens : List Token}
    (h : step mode c = .ok (tokens, mode')) : run mode [c] = .ok (tokens, mode') := by
  rw [run, h]
  simp only [run, bind, Except.bind, pure, Except.pure, List.append_nil]

theorem step_special (w : Word) {c : UInt8} (h : isSpecial c = true) :
    step (.doubleQuotedEscaped w) c = .ok ([], .doubleQuoted (w ++ [(c, true)])) := by
  have hnewline : c ≠ 10 := by
    rintro rfl
    cases h
  rw [step, if_neg hnewline, if_pos h]

theorem step_plain (w : Word) {c : UInt8} (h : isSpecial c = false) :
    step (.doubleQuoted w) c = .ok ([], .doubleQuoted (w ++ [(c, true)])) := by
  simp only [isSpecial, Bool.or_eq_false_iff, beq_eq_false_iff_ne] at h
  obtain ⟨⟨⟨hquote, hbackslash⟩, hdollar⟩, hbackquote⟩ := h
  rw [step, if_neg hquote, if_neg hbackslash, if_neg (by simp [hdollar, hbackquote])]

/-- Between double quotes the lexer gets back every byte that was escaped. -/
theorem run_escape (w : Word) (text : List UInt8) :
    run (.doubleQuoted w) (escape text) = .ok ([], .doubleQuoted (w ++ quotedWord text)) := by
  induction text generalizing w with
  | nil => rw [quotedWord, List.map_nil, List.append_nil]; rfl
  | cons c text ih =>
    have hword : w ++ quotedWord (c :: text) = (w ++ [(c, true)]) ++ quotedWord text := by
      simp [quotedWord]
    have hrest := ih (w ++ [(c, true)])
    rw [hword]
    by_cases hspecial : isSpecial c = true
    · have hescape : escape (c :: text) = [92, c] ++ escape text := by
        simp [escape, hspecial]
      have hbackslash : step (.doubleQuoted w) 92 = .ok ([], .doubleQuotedEscaped w) := rfl
      have hboth := run_append (run_of_step hbackslash) (run_of_step (step_special w hspecial))
      rw [hescape]
      exact run_append hboth hrest
    · rw [Bool.not_eq_true] at hspecial
      have hescape : escape (c :: text) = [c] ++ escape text := by
        simp [escape, hspecial]
      rw [hescape]
      exact run_append (run_of_step (step_plain w hspecial)) hrest

theorem literal_quotedWord (text : List UInt8) : literal (quotedWord text) = some text := by
  simp [literal, quotedWord, Function.comp_def]

end PosixShell
