import HardwareTest.Lib.Utf8
import Mathlib.Data.List.Monad

/-!
# Lines of a command shell

A line is read character by character into tokens, the tokens into and-or lists of simple commands, and
the lists are carried out one after the other.  Only what the standard gives one meaning is read:
substitutions, redirections, pipes, patterns, comments, history and the reserved words are outside the
fragment, and a line with one of them is not read at all.  What `eval` does with its text and what the
other utilities do are parameters.

* `Reads` — a text that reads as a part of a word, in and outside quotes (`reads_plain`, `reads_single`,
  `reads_double`, `reads_variable`);
* `readFrom_word`, `readFrom_semi`, `readFrom_andIf` — words and what ends them;
* `run_words` — a line of one command calls it with the values of its words.
-/

namespace HardwareTest.Lib.Shell

abbrev Str := List Char

/-! ## Words and tokens -/

/-- One piece of a word: a character, `$?` or a variable, and whether it stands in quotes. -/
inductive Piece
  | char (c : Char) (quoted : Bool)
  | status (quoted : Bool)
  | variable (name : Str) (quoted : Bool)
  deriving DecidableEq

abbrev Word := List Piece

/-- A word of literal characters. -/
def literal (quoted : Bool) (s : Str) : Word := s.map fun c => .char c quoted

@[simp] theorem literal_nil (quoted : Bool) : literal quoted [] = [] := rfl

@[simp] theorem literal_cons (quoted : Bool) (c : Char) (s : Str) :
    literal quoted (c :: s) = .char c quoted :: literal quoted s := rfl

theorem literal_append (quoted : Bool) (s t : Str) :
    literal quoted (s ++ t) = literal quoted s ++ literal quoted t := List.map_append

inductive Token
  | word (w : Word)
  | semi
  | andIf
  deriving DecidableEq

/-! ## Reading a line -/

/-- Where the reading stands: outside quotes, in quotes, behind a backslash or a dollar sign, in the name
of a variable, or behind one ampersand. -/
inductive Mode
  | bare
  | single
  | double
  | escape
  | doubleEscape
  | dollar (quoted : Bool)
  | name (n : Str) (quoted : Bool)
  | ampersand
  deriving DecidableEq

/-- The reading so far: the word that is open, and the tokens before it. -/
structure Lexer where
  mode : Mode
  word : Option Word
  tokens : List Token
  deriving DecidableEq

namespace Lexer

def start : Lexer := ⟨.bare, none, []⟩

def within (l : Lexer) (m : Mode) : Lexer := { l with mode := m }

/-- Open a word, when none is open. -/
def begin (l : Lexer) : Lexer := { l with word := some (l.word.getD []) }

def add (l : Lexer) (w : Word) : Lexer := { l with word := some (l.word.getD [] ++ w) }

/-- The open word, when there is one, becomes a token. -/
def cut (l : Lexer) : Lexer := { l with word := none, tokens := l.tokens ++ (l.word.map .word).toList }

def push (l : Lexer) (t : Token) : Lexer := { l with tokens := l.tokens ++ [t] }

end Lexer

/-- A letter of the portable character set, or the underscore. -/
def isNameStart (c : Char) : Bool :=
  decide ((0x41 ≤ c.toNat ∧ c.toNat ≤ 0x5A) ∨ c.toNat = 0x5F ∨ (0x61 ≤ c.toNat ∧ c.toNat ≤ 0x7A))

def isNameChar (c : Char) : Bool := isNameStart c || decide (0x30 ≤ c.toNat ∧ c.toNat ≤ 0x39)

/-- The characters outside quotes that are read by rules of their own. -/
def special : List Char := " \t;&'\"\\$".toList

/-- The characters outside quotes that the fragment leaves out. -/
def excluded : List Char := "\n|<>()`*?[]~#!^".toList ++ ['\x7b', '\x7d']

/-- A character that stands for itself outside quotes. -/
def isPlain (c : Char) : Bool := decide (c ∉ special ∧ c ∉ excluded)

/-- The mode around an expansion. -/
def around : Bool → Mode
  | true => .double
  | false => .bare

def stepBare (l : Lexer) (c : Char) : Option Lexer :=
  match c with
  | ' ' | '\t' => some l.cut
  | ';' => some (l.cut.push .semi)
  | '&' => some (l.cut.within .ampersand)
  | '\'' => some (l.begin.within .single)
  | '"' => some (l.begin.within .double)
  | '\\' => some (l.begin.within .escape)
  | '$' => some (l.begin.within (.dollar false))
  | c => if isPlain c then some (l.add [.char c false]) else none

/-- In double quotes an interactive shell still reads the dollar sign, the backquote, the backslash and
the mark of the history. -/
def stepDouble (l : Lexer) (c : Char) : Option Lexer :=
  match c with
  | '"' => some (l.within .bare)
  | '\\' => some (l.within .doubleEscape)
  | '$' => some (l.within (.dollar true))
  | '`' => none
  | '!' => none
  | c => some (l.add [.char c true])

def stepAround (l : Lexer) (quoted : Bool) (c : Char) : Option Lexer :=
  if quoted then stepDouble l c else stepBare l c

def step (l : Lexer) (c : Char) : Option Lexer :=
  match l.mode with
  | .bare => stepBare l c
  | .single => if c = '\'' then some (l.within .bare) else some (l.add [.char c true])
  | .double => stepDouble l c
  | .escape => if c = '\n' then none else some ((l.add [.char c true]).within .bare)
  | .doubleEscape =>
    if c = '\n' then none
    else if c ∈ ['$', '`', '"', '\\'] then some ((l.add [.char c true]).within .double)
    else some ((l.add [.char '\\' true, .char c true]).within .double)
  | .dollar quoted =>
    if c = '?' then some ((l.add [.status quoted]).within (around quoted))
    else if isNameStart c then some (l.within (.name [c] quoted))
    else none
  | .name n quoted =>
    if isNameChar c then some (l.within (.name (n ++ [c]) quoted))
    else stepAround ((l.add [.variable n quoted]).within (around quoted)) quoted c
  | .ampersand => if c = '&' then some ((l.push .andIf).within .bare) else none

/-- Read a text. -/
def feed (l : Lexer) (s : Str) : Option Lexer := s.foldlM step l

/-- The tokens at the end of a line: no quotes are open. -/
def finish (l : Lexer) : Option (List Token) :=
  match l.mode with
  | .bare => some l.cut.tokens
  | .name n false => some (l.add [.variable n false]).cut.tokens
  | _ => none

def tokens (line : Str) : Option (List Token) := (feed .start line).bind finish

/-! ## Simple commands -/

/-- Assignments, then words. -/
structure Simple where
  assignments : List (Str × Word)
  words : List Word
  deriving DecidableEq

/-- Commands joined by `&&`: the first and those after it. -/
abbrev AndOr := Simple × List Simple

abbrev Script := List AndOr

/-- Words that the shell reads as its own where a command may start. -/
def reserved : List Str :=
  ["if", "then", "else", "elif", "fi", "do", "done", "case", "esac", "while", "until", "for", "in",
    "function", "select", "time", "coproc"].map String.toList

/-- The name that a word starts with, and the word after it. -/
def splitName : Word → Str × Word
  | .char c false :: w =>
    if isNameChar c then (c :: (splitName w).1, (splitName w).2) else ([], .char c false :: w)
  | w => ([], w)

def isName : Str → Bool
  | [] => false
  | c :: s => isNameStart c && s.all isNameChar

/-- A word that assigns, where assignments may stand. -/
def assignment? (w : Word) : Option (Str × Word) :=
  match splitName w with
  | (n, .char '=' false :: value) => if isName n then some (n, value) else none
  | _ => none

/-- The words of one command: assignments first, then a name that is no reserved word. -/
def simple? : List Word → Option Simple
  | [] => none
  | w :: ws =>
    match assignment? w with
    | some a => match ws with
      | [] => some ⟨[a], []⟩
      | w' :: ws' => (simple? (w' :: ws')).map fun c => { c with assignments := a :: c.assignments }
    | none => if w ∈ reserved.map (literal false) then none else some ⟨[], w :: ws⟩

/-- The lists of a line; `ws` are the words of the open command and `cs` the commands before it in its
list.  A semicolon at the end opens no further list. -/
def parseFrom : List Token → List Word → List Simple → Option Script
  | [], ws, cs => if ws = [] ∧ cs = [] then some [] else (simple? ws).map fun c => [andOr cs c]
  | .word w :: ts, ws, cs => parseFrom ts (ws ++ [w]) cs
  | .andIf :: ts, ws, cs => (simple? ws).bind fun c => parseFrom ts [] (cs ++ [c])
  | .semi :: ts, ws, cs =>
    (simple? ws).bind fun c => (parseFrom ts [] []).map fun script => andOr cs c :: script
where
  andOr : List Simple → Simple → AndOr
    | [], c => (c, [])
    | c' :: cs, c => (c', cs ++ [c])

/-- Read a line. -/
def parse (line : Str) : Option Script := (tokens line).bind fun ts => parseFrom ts [] []

/-! ## Carrying out a line -/

/-- A shell between two commands: its variables, the status of the last command, what has been written,
and everything else that a command may change. -/
structure State (σ : Type*) where
  vars : Str → Str
  status : ℕ
  output : List UInt8
  rest : σ

/-- The parts of a shell that the fragment leaves open.  Each may also not come back. -/
structure Utilities (σ : Type*) where
  /-- What `eval` does with its text. -/
  eval : Str → State σ → Option (State σ)
  /-- A status is one byte. -/
  eval_status : ∀ t s s', eval t s = some s' → s'.status < 256
  /-- The other utilities, with the assignments before their name. -/
  utility : List (Str × Str) → Str → List Str → State σ → Option (State σ)
  /-- The prompt shown for a value of `PS1`. -/
  prompt : State σ → Str → Str
  /-- A prompt without expansions is shown as it is. -/
  prompt_plain : ∀ s t, (∀ c ∈ t, c ∉ ['$', '`', '\\', '!']) → prompt s t = t

section Semantics

variable {σ : Type*}

namespace State

def assign (s : State σ) (name value : Str) : State σ :=
  { s with vars := Function.update s.vars name value }

def withStatus (s : State σ) (n : ℕ) : State σ := { s with status := n }

/-- Nothing is written yet. -/
def atLine (s : State σ) : State σ := { s with output := [] }

def write (s : State σ) (bytes : List UInt8) : State σ := { s with output := s.output ++ bytes }

end State

def Piece.value (s : State σ) : Piece → Str
  | .char c _ => [c]
  | .status _ => Nat.toDigits 10 s.status
  | .variable n _ => s.vars n

/-- A word without field splitting, as on the right of an assignment. -/
def value (s : State σ) (w : Word) : Str := w.flatMap (Piece.value s)

/-- An expansion outside quotes, whose value is split into fields. -/
def Piece.isSplit : Piece → Bool
  | .char _ _ => false
  | .status quoted => !quoted
  | .variable _ quoted => !quoted

/-- The one field of a word in which nothing is split. -/
def field (s : State σ) (w : Word) : Option Str := if w.any Piece.isSplit then none else some (value s w)

/-! ## `printf` and `export` -/

/-- One pass over the format: what is written, and the arguments left. -/
def format : Str → List Str → Option (Str × List Str)
  | [], args => some ([], args)
  | '%' :: 's' :: f, args => (format f args.tail).map fun r => (args.headD [] ++ r.1, r.2)
  | '%' :: '%' :: f, args => (format f args).map fun r => ('%' :: r.1, r.2)
  | '%' :: _, _ => none
  | '\\' :: 'n' :: f, args => (format f args).map fun r => ('\n' :: r.1, r.2)
  | '\\' :: '\\' :: f, args => (format f args).map fun r => ('\\' :: r.1, r.2)
  | '\\' :: _, _ => none
  | c :: f, args => (format f args).map fun r => (c :: r.1, r.2)

/-- The format is used again as long as arguments are left, unless it takes none. -/
def formatAll (f : Str) : ℕ → List Str → Option Str
  | 0, _ => none
  | n + 1, args => (format f args).bind fun r =>
    if r.2 = [] ∨ r.2.length = args.length then some r.1
    else (formatAll f n r.2).map fun t => r.1 ++ t

/-- `printf`. -/
def printf (args : List Str) (s : State σ) : Option (State σ) :=
  match args with
  | [] => none
  | f :: args => (formatAll f (args.length + 1) args).map fun t =>
    (s.write (Utf8.encode t)).withStatus 0

/-- `export` of assignments. -/
def exportAll : List Str → State σ → Option (State σ)
  | [], s => some (s.withStatus 0)
  | arg :: args, s =>
    if '=' ∈ arg ∧ isName (arg.takeWhile (· ≠ '=')) then
      exportAll args (s.assign (arg.takeWhile (· ≠ '=')) ((arg.dropWhile (· ≠ '=')).drop 1))
    else none

/-! ## Commands and lists -/

def assignAll : List (Str × Word) → State σ → State σ
  | [], s => s
  | (n, w) :: rest, s => assignAll rest (s.assign n (value s w))

variable (sh : Utilities σ)

/-- A command name with its arguments; assignments before it hold for the command only. -/
def call (environment : List (Str × Str)) (name : Str) (args : List Str) (s : State σ) :
    Option (State σ) :=
  if name = "eval".toList then
    if environment = [] then sh.eval ([' '].intercalate args) s else none
  else if name = "export".toList then if environment = [] then exportAll args s else none
  else if name = "printf".toList then printf args s
  else sh.utility environment name args s

/-- One simple command. -/
def execSimple (c : Simple) (s : State σ) : Option (State σ) :=
  if c.words = [] then some ((assignAll c.assignments s).withStatus 0)
  else (c.words.mapM (field s)).bind fun argv =>
    call sh (c.assignments.map fun a => (a.1, value s a.2)) (argv.headD []) argv.tail s

/-- The commands after the first of a list: each is carried out when the last one succeeded. -/
def execAnd : List Simple → State σ → Option (State σ)
  | [], s => some s
  | c :: cs, s => if s.status = 0 then (execSimple sh c s).bind (execAnd cs) else some s

def execAndOr (l : AndOr) (s : State σ) : Option (State σ) := (execSimple sh l.1 s).bind (execAnd sh l.2)

/-- The lists of a line, in order. -/
def exec (script : Script) (s : State σ) : Option (State σ) := script.foldlM (fun s l => execAndOr sh l s) s

/-- A line that is read and carried out. -/
def run (line : Str) (s : State σ) : Option (State σ) := (parse line).bind fun script => exec sh script s

end Semantics

/-! ## Reading a word -/

theorem feed_nil (l : Lexer) : feed l [] = some l := rfl

theorem feed_cons (l : Lexer) (c : Char) (s : Str) : feed l (c :: s) = (step l c).bind fun l' => feed l' s :=
  List.foldlM_cons

theorem feed_append (l : Lexer) (s t : Str) : feed l (s ++ t) = (feed l s).bind fun l' => feed l' t :=
  List.foldlM_append

/-- **A text that reads as a part of a word**, whatever stands before it. -/
def Reads (s : Str) (v : Word) : Prop :=
  ∀ w ts, feed ⟨.bare, w, ts⟩ s = some ⟨.bare, some (w.getD [] ++ v), ts⟩

theorem Reads.append {s t : Str} {v u : Word} (hs : Reads s v) (ht : Reads t u) :
    Reads (s ++ t) (v ++ u) := by
  intro w ts
  rw [feed_append, hs, Option.bind_some, ht, Option.getD_some, List.append_assoc]

theorem stepBare_plain {c : Char} (hc : isPlain c = true) (l : Lexer) :
    stepBare l c = some (l.add [.char c false]) := by
  have hspecial : c ∉ special := (of_decide_eq_true hc).1
  unfold stepBare
  split
  · exact absurd (by decide) hspecial
  · exact absurd (by decide) hspecial
  · exact absurd (by decide) hspecial
  · exact absurd (by decide) hspecial
  · exact absurd (by decide) hspecial
  · exact absurd (by decide) hspecial
  · exact absurd (by decide) hspecial
  · exact absurd (by decide) hspecial
  · rw [if_pos hc]

/-- A class of characters that holds none of the others. -/
theorem isPlain_of {p : Char → Bool} (hp : (special ++ excluded).all (fun d => !p d) = true) {c : Char}
    (hc : p c = true) : isPlain c = true := by
  have hother : c ∉ special ++ excluded := by
    intro hmem
    have hnot := List.all_eq_true.mp hp c hmem
    rw [hc] at hnot
    cases hnot
  rw [List.mem_append, not_or] at hother
  exact decide_eq_true hother

theorem reads_char {c : Char} (hc : isPlain c = true) : Reads [c] [.char c false] := by
  intro w ts
  have hstep : step ⟨.bare, w, ts⟩ c = some ⟨.bare, some (w.getD [] ++ [.char c false]), ts⟩ :=
    stepBare_plain hc _
  rw [feed_cons, hstep]
  rfl

/-- Characters that stand for themselves outside quotes. -/
theorem reads_plain {s : Str} (hs : ∀ c ∈ s, isPlain c = true) (hne : s ≠ []) :
    Reads s (literal false s) := by
  induction s with
  | nil => exact absurd rfl hne
  | cons c s ih =>
    have hc : Reads [c] [.char c false] := reads_char (hs c List.mem_cons_self)
    cases s with
    | nil => exact hc
    | cons d s => exact hc.append (ih (fun c hc => hs c (List.mem_cons_of_mem _ hc)) (List.cons_ne_nil _ _))

/-- A fixed text without special characters. -/
theorem reads_fixed {s : Str} (hs : (s.all isPlain && !s.isEmpty) = true) : Reads s (literal false s) := by
  rw [Bool.and_eq_true] at hs
  exact reads_plain (List.all_eq_true.mp hs.1) (by simpa using hs.2)

theorem feed_single {s : Str} (hs : '\'' ∉ s) (w : Word) (ts : List Token) :
    feed ⟨.single, some w, ts⟩ s = some ⟨.single, some (w ++ literal true s), ts⟩ := by
  induction s generalizing w with
  | nil => rw [feed_nil, literal_nil, List.append_nil]
  | cons c s ih =>
    have hc : c ≠ '\'' := fun h => hs (h ▸ List.mem_cons_self)
    have hstep : step ⟨.single, some w, ts⟩ c = some ⟨.single, some (w ++ [.char c true]), ts⟩ := by
      simp only [step, if_neg hc]
      rfl
    rw [feed_cons, hstep, Option.bind_some, ih fun h => hs (List.mem_cons_of_mem _ h), literal_cons,
      List.append_assoc, List.singleton_append]

/-- A text in single quotes. -/
theorem reads_single {s : Str} (hs : '\'' ∉ s) : Reads ('\'' :: (s ++ ['\''])) (literal true s) := by
  intro w ts
  have hopen : step ⟨.bare, w, ts⟩ '\'' = some ⟨.single, some (w.getD []), ts⟩ := rfl
  rw [feed_cons, hopen, Option.bind_some, feed_append, feed_single hs]
  rfl

/-- A character that double quotes keep as it is. -/
def isKept (c : Char) : Bool := decide (c ∉ ['"', '\\', '$', '`', '!'])

theorem feed_double {s : Str} (hs : ∀ c ∈ s, isKept c = true) (w : Word) (ts : List Token) :
    feed ⟨.double, some w, ts⟩ s = some ⟨.double, some (w ++ literal true s), ts⟩ := by
  induction s generalizing w with
  | nil => rw [feed_nil, literal_nil, List.append_nil]
  | cons c s ih =>
    have hc : c ∉ ['"', '\\', '$', '`', '!'] := of_decide_eq_true (hs c List.mem_cons_self)
    have hstep : step ⟨.double, some w, ts⟩ c = some ⟨.double, some (w ++ [.char c true]), ts⟩ := by
      simp only [step]
      unfold stepDouble
      split
      · exact absurd (by decide) hc
      · exact absurd (by decide) hc
      · exact absurd (by decide) hc
      · exact absurd (by decide) hc
      · exact absurd (by decide) hc
      · rfl
    rw [feed_cons, hstep, Option.bind_some, ih fun d hd => hs d (List.mem_cons_of_mem _ hd), literal_cons,
      List.append_assoc, List.singleton_append]

/-- A text in double quotes. -/
theorem reads_double {s : Str} (hs : ∀ c ∈ s, isKept c = true) :
    Reads ('"' :: (s ++ ['"'])) (literal true s) := by
  intro w ts
  have hopen : step ⟨.bare, w, ts⟩ '"' = some ⟨.double, some (w.getD []), ts⟩ := rfl
  rw [feed_cons, hopen, Option.bind_some, feed_append, feed_double hs]
  rfl

/-- `$?` outside quotes. -/
theorem reads_status : Reads ['$', '?'] [.status false] := by
  intro w ts
  simp only [feed_cons, step, stepBare]
  rfl

theorem feed_name {s : Str} (hs : ∀ c ∈ s, isNameChar c = true) (n : Str) (quoted : Bool) (w : Option Word)
    (ts : List Token) : feed ⟨.name n quoted, w, ts⟩ s = some ⟨.name (n ++ s) quoted, w, ts⟩ := by
  induction s generalizing n with
  | nil => rw [feed_nil, List.append_nil]
  | cons c s ih =>
    have hstep : step ⟨.name n quoted, w, ts⟩ c = some ⟨.name (n ++ [c]) quoted, w, ts⟩ := by
      simp only [step, if_pos (hs c List.mem_cons_self)]
      rfl
    rw [feed_cons, hstep, Option.bind_some, ih fun d hd => hs d (List.mem_cons_of_mem _ hd), List.append_assoc,
      List.singleton_append]

/-- A variable in double quotes. -/
theorem reads_variable {n : Str} (hn : isName n = true) :
    Reads ('"' :: '$' :: (n ++ ['"'])) [.variable n true] := by
  cases n with
  | nil => cases hn
  | cons c n =>
    obtain ⟨hstart, hchars⟩ : isNameStart c = true ∧ n.all isNameChar = true := by
      simpa [isName] using hn
    intro w ts
    have hopen : step ⟨.bare, w, ts⟩ '"' = some ⟨.double, some (w.getD []), ts⟩ := rfl
    have hdollar : step ⟨.double, some (w.getD []), ts⟩ '$' = some ⟨.dollar true, some (w.getD []), ts⟩ := rfl
    have hname : step ⟨.dollar true, some (w.getD []), ts⟩ c
        = some ⟨.name [c] true, some (w.getD []), ts⟩ := by
      have hstatus : c ≠ '?' := fun h => absurd (h ▸ hstart) (by decide)
      simp only [step, if_neg hstatus, if_pos hstart]
      rfl
    rw [feed_cons, hopen, Option.bind_some, feed_cons, hdollar, Option.bind_some, List.cons_append,
      feed_cons, hname, Option.bind_some, feed_append, feed_name fun d hd => List.all_eq_true.mp hchars d hd,
      Option.bind_some]
    rfl

/-! ## Reading a line -/

/-- The tokens of a line whose rest is `s`. -/
def readFrom (ts : List Token) (s : Str) : Option (List Token) := (feed ⟨.bare, none, ts⟩ s).bind finish

theorem tokens_eq (line : Str) : tokens line = readFrom [] line := rfl

section Line

variable {s : Str} {v : Word}

/-- A word and a blank. -/
theorem readFrom_word (hs : Reads s v) (ts : List Token) (r : Str) :
    readFrom ts (s ++ ' ' :: r) = readFrom (ts ++ [.word v]) r := by
  rw [readFrom, feed_append, hs]
  rfl

theorem readFrom_blank (ts : List Token) (r : Str) : readFrom ts (' ' :: r) = readFrom ts r := by
  have hstep : step ⟨.bare, none, ts⟩ ' ' = some ⟨.bare, none, ts ++ []⟩ := rfl
  rw [readFrom, feed_cons, hstep, List.append_nil]
  rfl

/-- A word and a semicolon. -/
theorem readFrom_semi (hs : Reads s v) (ts : List Token) (r : Str) :
    readFrom ts (s ++ ';' :: r) = readFrom (ts ++ [.word v, .semi]) r := by
  have hstep : step ⟨.bare, some v, ts⟩ ';' = some ⟨.bare, none, ts ++ [.word v] ++ [.semi]⟩ := rfl
  rw [readFrom, feed_append, hs, Option.bind_some, feed_cons]
  change ((step ⟨.bare, some v, ts⟩ ';').bind fun l' => feed l' r).bind finish = _
  rw [hstep, List.append_assoc, Option.bind_some]
  rfl

/-- Two ampersands. -/
theorem readFrom_andIf (ts : List Token) (r : Str) :
    readFrom ts ('&' :: '&' :: r) = readFrom (ts ++ [.andIf]) r := by
  have hfirst : step ⟨.bare, none, ts⟩ '&' = some ⟨.ampersand, none, ts ++ []⟩ := rfl
  rw [readFrom, feed_cons, hfirst, List.append_nil]
  rfl

/-- The last word. -/
theorem readFrom_last (hs : Reads s v) (ts : List Token) : readFrom ts s = some (ts ++ [.word v]) := by
  rw [readFrom, hs]
  rfl

end Line

/-! ## Commands of literal words -/

section Literal

variable {σ : Type*} (sh : Utilities σ) (s : State σ)

theorem value_literal (quoted : Bool) (t : Str) : value s (literal quoted t) = t := by
  induction t with
  | nil => rfl
  | cons c t ih => exact congrArg (c :: ·) ih

theorem field_literal (quoted : Bool) (t : Str) : field s (literal quoted t) = some t := by
  have hsplit : (literal quoted t).any Piece.isSplit = false := by
    rw [List.any_eq_false]
    intro p hp
    obtain ⟨c, -, rfl⟩ := List.mem_map.mp hp
    exact Bool.false_ne_true
  rw [field, hsplit, value_literal]
  rfl

/-- Literal words are the arguments as they stand. -/
theorem mapM_field_literal (args : List (Bool × Str)) :
    (args.map fun a => literal a.1 a.2).mapM (field s) = some (args.map Prod.snd) := by
  induction args with
  | nil => rfl
  | cons a args ih =>
    rw [List.map_cons, List.mapM_cons, field_literal, ih]
    rfl

/-- **A command of literal words** is called with exactly these words. -/
theorem execSimple_literal (name : Bool × Str) (args : List (Bool × Str)) :
    execSimple sh ⟨[], (name :: args).map fun a => literal a.1 a.2⟩ s
      = call sh [] name.2 (args.map Prod.snd) s := by
  rw [execSimple, if_neg (by simp), mapM_field_literal]
  rfl

theorem exec_nil : exec sh [] s = some s := rfl

/-- The lists of a line are carried out in order. -/
theorem exec_cons (l : AndOr) (script : Script) :
    exec sh (l :: script) s = (execAndOr sh l s).bind (exec sh script) := List.foldlM_cons

theorem execAndOr_single (c : Simple) : execAndOr sh (c, []) s = execSimple sh c s := Option.bind_fun_some _

theorem call_utility {name : Str} (h : name ∉ ["eval", "export", "printf"].map String.toList) (args : List Str) :
    call sh [] name args s = sh.utility [] name args s := by
  simp only [List.map_cons, List.map_nil, List.mem_cons, List.not_mem_nil, or_false, not_or] at h
  rw [call, if_neg h.1, if_neg h.2.1, if_neg h.2.2]

end Literal

/-! ## A line of one command -/

/-- A text that reads as one literal value. -/
def ReadsAs (t v : Str) : Prop := ∃ quoted, Reads t (literal quoted v)

theorem readsAs_plain {t : Str} (ht : (t.all isPlain && !t.isEmpty) = true) : ReadsAs t t :=
  ⟨false, reads_fixed ht⟩

/-- A command name that the shell takes for one. -/
def IsCommand (w : Word) : Prop := assignment? w = none ∧ w ∉ reserved.map (literal false)

instance (w : Word) : Decidable (IsCommand w) := inferInstanceAs (Decidable (_ ∧ _))

theorem simple?_command {w : Word} (hw : IsCommand w) (ws : List Word) :
    simple? (w :: ws) = some ⟨[], w :: ws⟩ := by
  rw [simple?, hw.1]
  simp only [if_neg hw.2]

theorem parseFrom_words (ws vs : List Word) (cs : List Simple) (ts : List Token) :
    parseFrom (ws.map .word ++ ts) vs cs = parseFrom ts (vs ++ ws) cs := by
  induction ws generalizing vs with
  | nil => rw [List.map_nil, List.nil_append, List.append_nil]
  | cons w ws ih =>
    rw [List.map_cons, List.cons_append, parseFrom, ih, List.append_assoc, List.singleton_append]

/-- Words with a blank between them. -/
theorem readFrom_words {t : Str} {w : Word} {texts : List Str} {words : List Word} (ht : Reads t w)
    (hrest : List.Forall₂ Reads texts words) (ts : List Token) :
    readFrom ts ([' '].intercalate (t :: texts)) = some (ts ++ (w :: words).map .word) := by
  induction hrest generalizing t w ts with
  | nil =>
    rw [List.intercalate_singleton]
    exact readFrom_last ht ts
  | cons hnext _ ih =>
    rw [List.intercalate_cons_cons, List.append_assoc, List.singleton_append, readFrom_word ht, ih hnext,
      List.append_assoc]
    rfl

/-- **A line of one command** calls it with the values that its words read as. -/
theorem run_words {σ : Type*} (sh : Utilities σ) (s : State σ) {t : Str} (name : Bool × Str)
    {texts values : List Str} (hname : Reads t (literal name.1 name.2))
    (hcommand : IsCommand (literal name.1 name.2)) (hargs : List.Forall₂ ReadsAs texts values) :
    run sh ([' '].intercalate (t :: texts)) s = call sh [] name.2 values s := by
  obtain ⟨args, hread, rfl⟩ : ∃ args : List (Bool × Str),
      List.Forall₂ Reads texts (args.map fun a => literal a.1 a.2) ∧ args.map Prod.snd = values := by
    clear hname
    induction hargs with
    | nil => exact ⟨[], .nil, rfl⟩
    | @cons u v us vs hu _ ih =>
      obtain ⟨quoted, hquoted⟩ := hu
      obtain ⟨args, hread, hvalues⟩ := ih
      exact ⟨(quoted, v) :: args, .cons hquoted hread, congrArg (v :: ·) hvalues⟩
  have hparse : parse ([' '].intercalate (t :: texts))
      = some [(⟨[], (name :: args).map fun a => literal a.1 a.2⟩, [])] := by
    rw [parse, tokens_eq, readFrom_words hname hread, List.nil_append, Option.bind_some]
    have hwords := parseFrom_words ((name :: args).map fun a => literal a.1 a.2) [] [] []
    rw [List.append_nil, List.nil_append] at hwords
    rw [← List.map_cons (f := fun a : Bool × Str => literal a.1 a.2), hwords, parseFrom,
      if_neg (fun h => by cases h.1), List.map_cons, simple?_command hcommand]
    rfl
  rw [run, hparse, Option.bind_some, exec_cons, execAndOr_single, execSimple_literal]
  exact Option.bind_fun_some _

/-! ## Assignments -/

theorem splitName_name {n : Str} (hn : ∀ c ∈ n, isNameChar c = true) (v : Word) :
    splitName (literal false n ++ .char '=' false :: v) = (n, .char '=' false :: v) := by
  induction n with
  | nil => rfl
  | cons c n ih =>
    rw [literal_cons, List.cons_append, splitName, if_pos (hn c List.mem_cons_self),
      ih fun d hd => hn d (List.mem_cons_of_mem _ hd)]

theorem nameChar_of_isName {n : Str} (hn : isName n = true) : ∀ c ∈ n, isNameChar c = true := by
  cases n with
  | nil => cases hn
  | cons c n =>
    obtain ⟨hstart, hchars⟩ : isNameStart c = true ∧ n.all isNameChar = true := by
      simpa [isName] using hn
    intro d hd
    rcases List.mem_cons.mp hd with rfl | hd
    · rw [isNameChar, hstart, Bool.true_or]
    · exact List.all_eq_true.mp hchars d hd

/-- A name and an equals sign assign the rest of the word. -/
theorem simple?_assignment {n : Str} (hn : isName n = true) (v : Word) :
    simple? [literal false n ++ .char '=' false :: v] = some ⟨[(n, v)], []⟩ := by
  rw [simple?, assignment?, splitName_name (nameChar_of_isName hn)]
  simp only [if_pos hn]

theorem isPlain_of_isNameChar {c : Char} (h : isNameChar c = true) : isPlain c = true :=
  isPlain_of (by decide) h

/-- The characters of a format that are written as they are. -/
theorem format_append {t : Str} (ht : '%' ∉ t ∧ '\\' ∉ t) (f : Str) (args : List Str) :
    format (t ++ f) args = (format f args).map fun r => (t ++ r.1, r.2) := by
  induction t with
  | nil =>
    rw [List.nil_append]
    cases format f args <;> rfl
  | cons c t ih =>
    have hpercent : c ≠ '%' := fun h => ht.1 (h ▸ List.mem_cons_self)
    have hbackslash : c ≠ '\\' := fun h => ht.2 (h ▸ List.mem_cons_self)
    have hrest := ih ⟨fun h => ht.1 (List.mem_cons_of_mem _ h), fun h => ht.2 (List.mem_cons_of_mem _ h)⟩
    rw [List.cons_append, format, hrest, Option.map_map]
    · rfl
    · exact fun _ h _ => absurd h hpercent
    · exact fun _ h _ => absurd h hpercent
    · exact fun h => absurd h hpercent
    · exact fun _ h _ => absurd h hbackslash
    · exact fun _ h _ => absurd h hbackslash
    · exact fun h => absurd h hbackslash

end HardwareTest.Lib.Shell
