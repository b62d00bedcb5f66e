import Zyntry.OAuthConnections
import Zyntry.SqlLocks

/-!
# A state gives one connection

A callback locks the row of its state, but it deletes the row only after the commit of the
connection, which frees the lock. A state gives at most one connection as long as no callback
finds the row once a connection has been committed from it.
-/

namespace Zyntry.OAuthService

open SqlProgram

variable {S : Type} [DecidableEq S]

abbrev oauthStart (providerId : String → Option ℕ) (db : OAuthDb) (requests : S → OAuthRequest) :
    World S OAuthDb OAuthLock OAuthStatement OAuthError (Option OAuthConnection) :=
  World.start db fun s => (requests s).program providerId

/-- A connection is committed from the state. -/
def OAuthStatement.connectsFrom (stateId : ℕ) : OAuthStatement → Bool
  | .connect id _ => id = stateId
  | _ => false

/-- States are taken by the lookup of a callback and used by the commit of a connection. -/
def stateUsage (stateId : ℕ) : Usage OAuthLock OAuthStatement where
  resource := .state stateId
  takes l := l = .validateState
  uses := OAuthStatement.connectsFrom stateId

/-- The commit is not that of a connection from one of the states. -/
def OAuthStatement.Spares (rows : List OAuthLock) : OAuthStatement → Prop
  | .connect stateId _ => .state stateId ∉ rows
  | _ => True

instance OAuthStatement.Spares.decidable (rows : List OAuthLock) :
    ∀ l : OAuthStatement, Decidable (l.Spares rows)
  | .connect _ _ => inferInstanceAs (Decidable (_ ∉ rows))
  | .read | .validateState | .tick _ | .authorize _ | .deleteState _ | .refresh _ _ _ _
  | .revoke _ | .fill _ _ | .drop _ => .isTrue trivial

/-- A lookup only finds states that have not given a connection. -/
def FindsUnused (w : World S OAuthDb OAuthLock OAuthStatement OAuthError (Option OAuthConnection))
    (s : S) : Prop :=
  match w.session s with
  | .lock .validateState rows _ => ∀ l ∈ w.log, l.Spares (rows w.db)
  | _ => True

instance FindsUnused.decidable
    (w : World S OAuthDb OAuthLock OAuthStatement OAuthError (Option OAuthConnection)) (s : S) :
    Decidable (FindsUnused w s) := by
  unfold FindsUnused
  split <;> infer_instance

omit [DecidableEq S] in
theorem FindsUnused.takesUnused {w : World S OAuthDb OAuthLock OAuthStatement OAuthError
    (Option OAuthConnection)} {s : S} (h : FindsUnused w s) (stateId : ℕ) :
    World.TakesUnused (stateUsage stateId) w s := by
  unfold World.TakesUnused
  cases hp : w.session s with
  | lock l rows next =>
      intro htakes hmem l' hl'
      obtain rfl : l = .validateState := by simpa [stateUsage] using htakes
      simp only [FindsUnused, hp] at h
      have hspares := h l' hl'
      cases l' with
      | connect id connection =>
          by_contra hused
          obtain rfl : id = stateId := by simpa [stateUsage, OAuthStatement.connectsFrom] using hused
          exact hspares hmem
      | _ => rfl
  | _ => trivial

/-! ## The programs -/

theorem locked_commitOAuth {u : Usage OAuthLock OAuthStatement} {owns : Prop} {l : OAuthStatement}
    {α : Type} {k : Unit → OAuthProgram α} :
    (commitOAuth l >>= k).Locked u owns ↔ (u.uses l = true → owns) ∧ (k ()).Locked u False :=
  locked_write

theorem locked_oauthCallback (providerId : String → Option ℕ) (r : CallbackRequest) (stateId : ℕ) :
    (oauthCallback providerId r).Locked (stateUsage stateId) False := by
  simp only [oauthCallback, validateState, oauthClock, bind_assoc, locked_query, locked_locking,
    locked_orRaise, locked_ensure]
  intro d d' state hstate _ _ providerId' _
  cases r.answer with
  | error e => exact locked_raise.2 trivial
  | ok tokens =>
      simp only [locked_query, locked_orRaise]
      intro d'' userId _ projectId _
      rw [locked_commitOAuth]
      constructor
      · intro huses
        obtain rfl : state.id = stateId := by
          simpa [stateUsage, OAuthStatement.connectsFrom] using huses
        refine .inr ⟨by simp [stateUsage], List.mem_map.2 ⟨state, ?_, rfl⟩⟩
        exact List.mem_of_head? hstate
      · rw [locked_locking]
        intro d₃
        rw [locked_commitOAuth]
        exact ⟨fun huses => by simp [stateUsage, OAuthStatement.connectsFrom] at huses,
          locked_ret.2 trivial⟩

theorem OAuthRequest.locked_program (providerId : String → Option ℕ) (r : OAuthRequest)
    (stateId : ℕ) : (r.program providerId).Locked (stateUsage stateId) False := by
  have hunused : ∀ {l : OAuthStatement} {p : Prop}, l.connectsFrom stateId = false →
      ((stateUsage stateId).uses l = true → p) := by
    intro l p hl huses
    rw [show (stateUsage stateId).uses l = false from hl] at huses
    cases huses
  cases r with
  | tick seconds =>
      rw [program, locked_commitOAuth]
      exact ⟨hunused rfl, locked_ret.2 trivial⟩
  | authorize r =>
      simp only [program, oauthAuthorize, oauthClock, locked_orRaise, locked_query]
      intro _ _ d
      rw [locked_commitOAuth]
      exact ⟨hunused rfl, locked_ret.2 trivial⟩
  | callback r => exact locked_oauthCallback providerId r stateId
  | lookup key =>
      rw [program, getConnection]
      cases providerId key.provider with
      | none => exact locked_ret.2 trivial
      | some id =>
          dsimp only
          rw [getConnectionCached, locked_query]
          intro d
          cases d.cached key with
          | some connection => exact locked_ret.2 trivial
          | none =>
              dsimp only
              rw [locked_query]
              intro d'
              cases (d'.activeConnections id key).head? with
              | none => exact locked_ret.2 trivial
              | some connection =>
                  dsimp only
                  rw [locked_commitOAuth]
                  exact ⟨hunused rfl, locked_ret.2 trivial⟩
  | refresh connectionId provider answer =>
      simp only [program, OAuthService.refreshToken, locked_orRaise, locked_query]
      intro d row _ name _ oldToken _
      rw [locked_commitOAuth]
      refine ⟨hunused rfl, ?_⟩
      cases answer with
      | error e => exact locked_raise.2 trivial
      | ok tokens =>
          simp only [oauthClock, locked_query, locked_locking]
          intro d' d''
          rw [locked_commitOAuth]
          exact ⟨hunused rfl, locked_ret.2 trivial⟩
  | revoke connectionId =>
      simp only [program, OAuthService.revokeConnection, locked_orRaise, locked_query, locked_locking]
      intro d row _ d'
      rw [locked_commitOAuth]
      exact ⟨hunused rfl, locked_ret.2 trivial⟩

/-- In every interleaving, crashes included, in which no callback finds a state after a
connection has been committed from it, a state gives at most one connection. -/
theorem oauthState_usedOnce (providerId : String → Option ℕ) (db : OAuthDb)
    (requests : S → OAuthRequest)
    (w : World S OAuthDb OAuthLock OAuthStatement OAuthError (Option OAuthConnection))
    (hrun : World.Run FindsUnused (oauthStart providerId db requests) w) (stateId : ℕ) :
    w.log.countP (OAuthStatement.connectsFrom stateId) ≤ 1 :=
  hrun.countP_uses_le_one (u := stateUsage stateId) (fun _ _ h => h.takesUnused stateId)
    fun s => (requests s).locked_program providerId stateId

/-! ## Two callbacks with one state -/

def githubOnly (provider : String) : Option ℕ := if provider = "github" then some 1 else none

def onePendingState : OAuthDb where
  states := .single
    { id := 7, provider := "github", state := "st", userId := some 1, projectId := some 2,
      expiresAt := 600 }

def callbackWith (connectionId : ℕ) : OAuthRequest :=
  .callback { provider := "github", state := "st", answer := .ok { accessToken := "token" },
              connectionId }

def twoCallbacks (second : Bool) : OAuthRequest := callbackWith (if second then 12 else 11)

def oneCallbackAfterTheOther : List Bool := List.replicate 12 false ++ List.replicate 12 true

/-- The second callback finds the state between the two commits of the first one: after the
clock, the lookup, the clock and the commit. -/
def betweenTheCommits : List Bool :=
  List.replicate 4 false ++ List.replicate 12 true ++ List.replicate 4 false

theorem oauthState_usedOnce_inTurn :
    let w := (oauthStart githubOnly onePendingState twoCallbacks).play oneCallbackAfterTheOther
    w.log.countP (OAuthStatement.connectsFrom 7) = 1 ∧
      w.log.countP (OAuthStatement.connectsFrom 7) ≤ 1 :=
  ⟨by decide +kernel,
    oauthState_usedOnce githubOnly onePendingState twoCallbacks _
      (World.Run.start.play (by decide +kernel)) 7⟩

/-- A state gives two connections to callbacks that overlap. -/
theorem oauthState_usedTwice :
    ∃ w, World.Reachable (oauthStart githubOnly onePendingState twoCallbacks) w ∧
      w.log.countP (OAuthStatement.connectsFrom 7) = 2 :=
  ⟨_, World.play_reachable _ betweenTheCommits, by decide +kernel⟩

end Zyntry.OAuthService
