import Zyntry.JsonDecoder

/-!
# The lexemes of a text

Outside of string literals a text consists of separators (blanks, commas, colons, braces and
brackets) and of runs of other characters. An automaton reads the lexemes of any text, so that
what has been read of a document is described by where the automaton stands after it.
-/

namespace Python

inductive Lexeme where
  | literal (chars : List Char)
  | run (chars : List Char)
  | unterminated (chars : List Char)
deriving DecidableEq

def isSeparator (c : Char) : Bool := isSpace c || c ∈ [',', ':', '{', '}', '[', ']']

def isRunChar (c : Char) : Bool := c ≠ '"' && !isSeparator c

/-- Where the automaton stands, with what it has read of the current lexeme. -/
inductive LexMode where
  | outside (run : List Char)
  | inString (chars : List Char)
  | escaped (chars : List Char)

def runLexeme (run : List Char) : List Lexeme := if run = [] then [] else [.run run]

namespace LexMode

/-- The lexemes that end before or with a character. -/
def step (c : Char) : LexMode → List Lexeme × LexMode
  | outside run =>
      if c = '"' then (runLexeme run, inString [c])
      else if isSeparator c then (runLexeme run, outside [])
      else ([], outside (run ++ [c]))
  | inString chars =>
      if c = '"' then ([.literal (chars ++ [c])], outside [])
      else if c = '\\' then ([], escaped (chars ++ [c]))
      else ([], inString (chars ++ [c]))
  | escaped chars => ([], inString (chars ++ [c]))

def pass : LexMode → List Char → List Lexeme × LexMode
  | mode, [] => ([], mode)
  | mode, c :: cs =>
      ((mode.step c).1 ++ ((mode.step c).2.pass cs).1, ((mode.step c).2.pass cs).2)

/-- The lexeme that the end of the text ends. -/
def finish : LexMode → List Lexeme
  | outside run => runLexeme run
  | inString chars | escaped chars => [.unterminated chars]

theorem pass_append (mode : LexMode) (cs cs' : List Char) :
    mode.pass (cs ++ cs') = ((mode.pass cs).1 ++ ((mode.pass cs).2.pass cs').1,
      ((mode.pass cs).2.pass cs').2) := by
  induction cs generalizing mode with
  | nil => simp [pass]
  | cons c cs ih => simp [pass, ih, List.append_assoc]

end LexMode

def lexemes (cs : List Char) : List Lexeme :=
  ((LexMode.outside []).pass cs).1 ++ ((LexMode.outside []).pass cs).2.finish

def lexemeRuns (cs : List Char) : List (List Char) :=
  (lexemes cs).filterMap fun lexeme =>
    match lexeme with
    | .run chars => some chars
    | _ => none

/-- The text does not go on with a run. -/
def NoRunHead (cs : List Char) : Prop := ∀ c ∈ cs.head?, isRunChar c = false

/-- A part of a text that ends outside of strings, after the start of a run that may go on. -/
structure Passes (piece : List Char) (found : List Lexeme) (run : List Char) : Prop where
  pass_eq : (LexMode.outside []).pass piece = (found, .outside run)

namespace Passes

variable {piece piece' cs : List Char} {found found' : List Lexeme} {run run' : List Char}

theorem nil : Passes [] [] [] := ⟨rfl⟩

theorem lexemes_eq (h : Passes piece found run) : lexemes piece = found ++ runLexeme run := by
  simp only [lexemes, h.pass_eq, LexMode.finish]

/-- Where no run goes on, the lexemes begin anew. -/
theorem pass_outside (hrun : run = [] ∨ NoRunHead cs) (hcs : run = [] ∨ cs ≠ []) :
    (LexMode.outside run).pass cs =
      (runLexeme run ++ ((LexMode.outside []).pass cs).1, ((LexMode.outside []).pass cs).2) := by
  obtain rfl | hrun' := hrun
  · simp [runLexeme]
  cases cs with
  | nil =>
      obtain rfl | hcs := hcs
      · simp [runLexeme]
      · exact absurd rfl hcs
  | cons c cs =>
      have hc := hrun' c rfl
      simp only [isRunChar, Bool.and_eq_false_iff, decide_eq_false_iff_not, not_not,
        Bool.not_eq_false'] at hc
      by_cases hquote : c = '"'
      · simp [LexMode.pass, LexMode.step, hquote, runLexeme]
      · have hsep := hc.resolve_left hquote
        simp [LexMode.pass, LexMode.step, hquote, hsep, runLexeme]

theorem lexemes_append (h : Passes piece found run) (hrun : run = [] ∨ NoRunHead cs) :
    lexemes (piece ++ cs) = lexemes piece ++ lexemes cs := by
  rw [h.lexemes_eq]
  unfold lexemes
  rw [LexMode.pass_append, h.pass_eq]
  by_cases hcs : run = [] ∨ cs ≠ []
  · rw [pass_outside hrun hcs]
    simp [List.append_assoc]
  · obtain ⟨_, rfl⟩ : run ≠ [] ∧ cs = [] := by tauto
    simp [LexMode.pass, LexMode.finish, runLexeme]

theorem append (h : Passes piece found run) (h' : Passes piece' found' run')
    (hrun : run = [] ∨ NoRunHead piece' ∧ piece' ≠ []) :
    Passes (piece ++ piece') (found ++ runLexeme run ++ found') run' := by
  constructor
  rw [LexMode.pass_append, h.pass_eq,
    pass_outside (hrun.imp_right And.left) (hrun.imp_right And.right), h'.pass_eq,
    List.append_assoc]

end Passes

theorem lexemes_cons_separator {c : Char} (hc : isSeparator c = true) (cs : List Char) :
    lexemes (c :: cs) = lexemes cs := by
  have hquote : c ≠ '"' := by
    rintro rfl
    exact absurd hc (by decide)
  simp [lexemes, LexMode.pass, LexMode.step, hquote, hc, runLexeme]

end Python
