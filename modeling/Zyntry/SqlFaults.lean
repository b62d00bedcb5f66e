import Zyntry.SqlProgram

/-!
# Calls that are cut short

A statement can fail for reasons that the program knows nothing of: the connection
breaks, the client goes away. `interrupt e n` lets statement number `n` raise `e`.
Everything the call has not committed by then is lost.
-/

namespace SqlProgram

variable {D R L E α : Type}

/-- Statement number `n` raises `e`, or what follows the last one if there are
fewer. An interrupted call never returns. -/
def interrupt (e : E) : ℕ → SqlProgram D R L E α → SqlProgram D R L E α
  | 0, _ => .raise e
  | _ + 1, .ret _ => .raise e
  | _ + 1, .raise _ => .raise e
  | n + 1, .select l next => .select l (fun d => (next d).interrupt e n)
  | n + 1, .lock l rows next => .lock l rows (fun d => (next d).interrupt e n)
  | n + 1, .commit l w next => .commit l w (next.interrupt e n)

theorem keeps_interrupt {I : D → Prop} {p : SqlProgram D R L E α} {d : D}
    {post post' : α → D → Prop} (e : E) (n : ℕ) (h : p.Keeps I d post) :
    (p.interrupt e n).Keeps I d post' := by
  induction n generalizing p d with
  | zero => trivial
  | succ n ih =>
      cases p with
      | ret a => trivial
      | raise e' => trivial
      | select l next => exact ih h
      | lock l rows next => exact ih h
      | commit l w next => exact ⟨h.1, ih h.2⟩

end SqlProgram
