import Zyntry.InvokePricing
import Zyntry.InvokeTools

/-!
# Streamed answers

With a callback for tokens `invoke` streams its first model call, or, if it may call tools, the
last of the calls that follow them. A call that fails after its first token is not tried again.
What is billed and returned is the text that the rounds have left.
-/

namespace Zyntry

/-! ## Calls that stream -/

inductive CallEnding where
  | completed (usage : CompletionUsage)
  /-- `recorded` as in `CallOutcome`. -/
  | raised (recorded : Bool) (error : String)
deriving DecidableEq, Repr

/-- What a provider does in one call: the chunks of its text, and how the call ends. -/
structure ProviderCall where
  chunks : List String
  ending : CallEnding
deriving DecidableEq, Repr

namespace ProviderCall

/-- The chunks that reach `on_token`. -/
def tokens (call : ProviderCall) : List String := call.chunks.filter fun chunk => chunk ≠ ""

def text (call : ProviderCall) : String := String.join call.tokens

/-- What the call comes to, with or without `on_token`. -/
def outcome (call : ProviderCall) (onToken : Bool) : CallOutcome :=
  match call.ending with
  | .completed usage => .completed call.text usage
  | .raised recorded error => .failed recorded (onToken && !call.tokens.isEmpty) error

def Completes (call : ProviderCall) : Prop := ∃ usage, call.ending = .completed usage

end ProviderCall

/-- The tokens that the loop over the candidates sends on. -/
def streamedTokens (calls : ℕ → ProviderCall) : ℕ → List Candidate → List String
  | _, [] => []
  | n, _ :: cs =>
      match (calls n).outcome true with
      | .failed _ false _ => (calls n).tokens ++ streamedTokens calls (n + 1) cs
      | _ => (calls n).tokens

def fixedCandidates (catalogue : Catalogue) (hasKey : Provider → Bool) (provider : Provider)
    (models : List String) : List Candidate :=
  if hasKey provider then
    (models.filterMap ModelName.ofString).map (catalogue.candidate provider)
  else []

/-! ## The pipeline -/

/-- A tool round, with the one provider call that it may make. -/
structure StreamedRound where
  allowed : Bool
  call : ProviderCall

structure StreamedInvocation where
  tools : ToolInvocation
  catalogue : Catalogue
  hasKey : Provider → Bool
  routing : Routing
  /-- The calls of the draft. -/
  draft : ℕ → ProviderCall
  rounds : ℕ → StreamedRound
  /-- Every other stage succeeds. -/
  succeeds : Bool
  estimated : CompletionUsage

/-- After a follow-up call. -/
def Answer.called (a : Answer) (router : Router) : Answer :=
  { a with router, modelAttempts := a.modelAttempts ++ router.lastAttempts }

@[simp] theorem Answer.called_text (a : Answer) (router : Router) :
    (a.called router).text = a.text := rfl

/-- After a follow-up call with a text. -/
def Answer.replaced (a : Answer) (reply : Reply) : Answer :=
  { a with
    provider := (reply.answered.map Candidate.provider).getD a.provider
    model := (reply.answered.map Candidate.model).getD a.model
    text := reply.text }

@[simp] theorem Answer.replaced_text (a : Answer) (reply : Reply) :
    (a.replaced reply).text = reply.text := rfl

/-- The tool rounds, and the tokens of the last one. -/
def streamRounds (catalogue : Catalogue) (hasKey : Provider → Bool) :
    List StreamedRound → Answer → Answer × List String
  | [], a => (a, [])
  | round :: rounds, a =>
      if round.allowed then
        let isFinalRound := rounds.isEmpty
        let (router, reply) := invokeFixed catalogue hasKey a.provider [a.model.value]
          fun _ => round.call.outcome isFinalRound
        let tokens :=
          if isFinalRound then streamedTokens (fun _ => round.call) 0
            (fixedCandidates catalogue hasKey a.provider [a.model.value])
          else []
        let a := a.called router
        let rest :=
          if reply.text ≠ "" then streamRounds catalogue hasKey rounds (a.replaced reply)
          else if reply.error ≠ "" then (a, [])
          else streamRounds catalogue hasKey rounds a
        (rest.1, tokens ++ rest.2)
      else (a, [])

/-- The rounds as the pricing of an invocation sees them. -/
def pricedRounds : List StreamedRound → List Round
  | [] => []
  | round :: rounds =>
      ⟨round.allowed, fun _ => round.call.outcome rounds.isEmpty⟩ :: pricedRounds rounds

namespace StreamedInvocation

/-- The rounds of the tool loop, one for each of its tools. -/
def loopRounds (x : StreamedInvocation) : List StreamedRound :=
  if x.tools.LoopEnabled then (List.range x.tools.loopTools.length).map x.rounds else []

def potentialToolLoop (x : StreamedInvocation) : Bool := !x.loopRounds.isEmpty

/-- The invocation that is priced. -/
def invocation (x : StreamedInvocation) : Invocation where
  catalogue := x.catalogue
  hasKey := x.hasKey
  routing := x.routing
  respond n := (x.draft n).outcome !x.potentialToolLoop
  rounds := pricedRounds x.loopRounds
  estimated := x.estimated

def draftTokens (x : StreamedInvocation) : List String :=
  if x.potentialToolLoop then [] else streamedTokens x.draft 0 x.invocation.candidates

/-- The answer before the tool rounds, from the candidate that has made the draft. -/
def draftAnswer (x : StreamedInvocation) (c : Candidate) : Answer where
  router := x.invocation.firstCall.1
  modelAttempts := x.invocation.firstCall.1.lastAttempts
  provider := c.provider
  model := c.model
  text := x.invocation.firstCall.2.text

/-- The answer that is billed and returned, and the tokens sent on before. -/
def run (x : StreamedInvocation) : Option Answer × List String :=
  match x.invocation.firstCall.2.answered with
  | none => (none, x.draftTokens)
  | some c =>
      if x.invocation.firstCall.2.text = "" then (none, x.draftTokens)
      else
        let rest := streamRounds x.catalogue x.hasKey x.loopRounds (x.draftAnswer c)
        (if x.succeeds then some rest.1 else none, x.draftTokens ++ rest.2)

end StreamedInvocation

/-! ## The rounds -/

theorem streamRounds_fst (catalogue : Catalogue) (hasKey : Provider → Bool)
    (rounds : List StreamedRound) (a : Answer) :
    (streamRounds catalogue hasKey rounds a).1 =
      toolRounds catalogue hasKey (pricedRounds rounds) a := by
  induction rounds generalizing a with
  | nil => rfl
  | cons round rounds ih =>
      simp only [streamRounds, pricedRounds, toolRounds]
      cases round.allowed with
      | false => rfl
      | true =>
          simp only [if_true]
          generalize invokeFixed catalogue hasKey a.provider [a.model.value]
            (fun _ => round.call.outcome rounds.isEmpty) = call
          by_cases htext : call.2.text = ""
          · by_cases herror : call.2.error = ""
            · simp only [htext, herror, ne_eq, not_true, if_false]
              exact ih _
            · simp only [htext, herror, ne_eq, not_true, not_false_eq_true, if_false, if_true]
              rfl
          · simp only [htext, ne_eq, not_false_eq_true, if_true]
            exact ih _

/-- Pricing an invocation takes the answer of the run. -/
theorem StreamedInvocation.run_fst (x : StreamedInvocation) :
    x.run.1 = if x.succeeds then x.invocation.answer else none := by
  unfold run Invocation.answer
  cases hanswered : x.invocation.firstCall.2.answered with
  | none => simp [hanswered]
  | some c =>
      by_cases htext : x.invocation.firstCall.2.text = ""
      · simp [hanswered, htext]
      · simp only [hanswered, htext, if_false, streamRounds_fst]
        rfl

/-- The text that the rounds keep when no more of them answers. -/
def keptText (draft : String) (rounds : List StreamedRound) : String :=
  rounds.foldl (fun text round => if round.call.text = "" then text else round.call.text) draft

/-- The round is made and its call completes. -/
def StreamedRound.Answers (round : StreamedRound) : Prop :=
  round.allowed = true ∧ round.call.Completes

variable {catalogue : Catalogue} {hasKey : Provider → Bool}

theorem ProviderCall.outcome_of_completes {call : ProviderCall} (h : call.Completes)
    (onToken : Bool) : ∃ usage, call.outcome onToken = .completed call.text usage := by
  obtain ⟨usage, husage⟩ := h
  exact ⟨usage, by rw [outcome, husage]⟩

theorem ProviderCall.outcome_of_not_completes {call : ProviderCall} (h : ¬call.Completes)
    (onToken : Bool) :
    ∃ recorded error, call.outcome onToken =
      .failed recorded (onToken && !call.tokens.isEmpty) error := by
  cases hending : call.ending with
  | completed usage => exact absurd ⟨usage, hending⟩ h
  | raised recorded error => exact ⟨recorded, error, by rw [outcome, hending]⟩

/-- One round that answers before the last one passes its text on and streams nothing. -/
theorem streamRounds_answers (catalogue : Catalogue) {round : StreamedRound}
    {rounds : List StreamedRound} {a : Answer}
    (hkey : hasKey a.provider = true) (hround : round.Answers) (hmore : rounds ≠ []) :
    ∃ a', hasKey a'.provider = true ∧ a'.text = keptText a.text [round] ∧
      streamRounds catalogue hasKey (round :: rounds) a =
        streamRounds catalogue hasKey rounds a' := by
  obtain ⟨hallowed, hcompletes⟩ := hround
  have hfinal : rounds.isEmpty = false := by simpa using hmore
  obtain ⟨usage, houtcome⟩ := ProviderCall.outcome_of_completes hcompletes false
  rw [streamRounds]
  simp only [hallowed, if_true, hfinal, invokeFixed_single _ _ hkey, houtcome, Bool.false_eq_true,
    if_false, List.nil_append]
  by_cases htext : round.call.text = ""
  · simp only [htext, ne_eq, not_true, if_false]
    refine ⟨a.called _, ?_, ?_, rfl⟩
    · exact hkey
    · simp [keptText, htext]
  · simp only [htext, ne_eq, not_false_eq_true, if_true]
    refine ⟨(a.called _).replaced _, ?_, ?_, rfl⟩
    · exact hkey
    · simp [keptText, htext]

/-- A round that does not answer ends the loop; before the last one it has streamed nothing. -/
theorem streamRounds_stops {round : StreamedRound} {rounds : List StreamedRound} {a : Answer}
    (hkey : hasKey a.provider = true) (hround : ¬round.Answers) (hmore : rounds ≠ []) :
    (streamRounds catalogue hasKey (round :: rounds) a).2 = [] := by
  have hfinal : rounds.isEmpty = false := by simpa using hmore
  rw [streamRounds]
  cases hallowed : round.allowed with
  | false => rfl
  | true =>
      have hfails : ¬round.call.Completes := fun h => hround ⟨hallowed, h⟩
      obtain ⟨recorded, error, houtcome⟩ := ProviderCall.outcome_of_not_completes hfails false
      rw [Bool.false_and] at houtcome
      by_cases herror : error = ""
      · simp [hfinal, invokeFixed_single _ _ hkey, houtcome, herror]
      · simp [hfinal, invokeFixed_single _ _ hkey, houtcome, herror]

theorem streamedTokens_single (call : ProviderCall) (c : Candidate) :
    streamedTokens (fun _ => call) 0 [c] = call.tokens := by
  unfold streamedTokens
  split
  · simp only [streamedTokens, List.append_nil]
  · rfl

theorem fixedCandidates_single {provider : Provider} (m : ModelName)
    (hkey : hasKey provider = true) :
    fixedCandidates catalogue hasKey provider [m.value] = [catalogue.candidate provider m] := by
  simp only [fixedCandidates, hkey, if_true, List.filterMap_cons, ModelName.ofString_value,
    List.filterMap_nil, List.map_cons, List.map_nil]

/-- The last round streams what its call sends; if the call fails the text is kept. -/
theorem streamRounds_last {round : StreamedRound} {a : Answer} (hkey : hasKey a.provider = true)
    (hallowed : round.allowed = true) :
    (streamRounds catalogue hasKey [round] a).2 = round.call.tokens ∧
      (round.call.Completes →
        (streamRounds catalogue hasKey [round] a).1.text = keptText a.text [round]) ∧
      (¬round.call.Completes → (streamRounds catalogue hasKey [round] a).1.text = a.text) := by
  rw [streamRounds]
  simp only [hallowed, if_true, List.isEmpty_nil, invokeFixed_single _ _ hkey,
    fixedCandidates_single _ hkey, streamedTokens_single, streamRounds]
  refine ⟨?_, ?_, ?_⟩
  · split_ifs <;> simp
  · intro hcompletes
    obtain ⟨usage, houtcome⟩ := ProviderCall.outcome_of_completes hcompletes true
    by_cases htext : round.call.text = ""
    · simp [houtcome, htext, keptText]
    · simp [houtcome, htext, keptText]
  · intro hfails
    obtain ⟨recorded, error, houtcome⟩ := ProviderCall.outcome_of_not_completes hfails true
    simp only [houtcome, ne_eq, not_true, if_false]
    split_ifs <;> rfl

/-- Every round before the last one answers, and the budget allows the last one. -/
def ReachesLast (before : List StreamedRound) (last : StreamedRound) : Prop :=
  (∀ round ∈ before, round.Answers) ∧ last.allowed = true

theorem keptText_append (draft : String) (rounds rounds' : List StreamedRound) :
    keptText draft (rounds ++ rounds') = keptText (keptText draft rounds) rounds' :=
  List.foldl_append

theorem keptText_singleton {draft : String} {round : StreamedRound}
    (h : round.call.tokens ≠ []) : keptText draft [round] = round.call.text := by
  have htext : round.call.text ≠ "" := by
    obtain ⟨token, tokens, htokens⟩ := List.exists_cons_of_ne_nil h
    have hmem : token ∈ round.call.tokens := by simp [htokens]
    have hne : token ≠ "" := by simpa using (List.mem_filter.mp hmem).2
    rw [ProviderCall.text, htokens, String.join_cons]
    simpa using fun hempty => absurd hempty hne
  simp only [keptText, List.foldl_cons, List.foldl_nil, htext, if_false]

theorem streamRounds_of_reachesLast (catalogue : Catalogue) {before : List StreamedRound}
    {last : StreamedRound} {a : Answer} (hkey : hasKey a.provider = true) (h : ReachesLast before last) :
    (streamRounds catalogue hasKey (before ++ [last]) a).2 = last.call.tokens ∧
      (last.call.Completes → (streamRounds catalogue hasKey (before ++ [last]) a).1.text =
        keptText (keptText a.text before) [last]) ∧
      (¬last.call.Completes → (streamRounds catalogue hasKey (before ++ [last]) a).1.text =
        keptText a.text before) := by
  induction before generalizing a with
  | nil => exact streamRounds_last hkey h.2
  | cons round before ih =>
      obtain ⟨a', hkey', htext, hrounds⟩ := streamRounds_answers catalogue hkey
        (h.1 round List.mem_cons_self)
        (List.append_ne_nil_of_right_ne_nil before (List.cons_ne_nil last []))
      have hkept : keptText a.text (round :: before) = keptText a'.text before := by
        rw [htext, ← keptText_append, List.singleton_append]
      rw [List.cons_append, hrounds, hkept]
      exact ih hkey' ⟨fun r hr => h.1 r (List.mem_cons_of_mem _ hr), h.2⟩

theorem streamRounds_of_not_reachesLast {rounds : List StreamedRound} {a : Answer}
    (hkey : hasKey a.provider = true)
    (h : ∀ before last, rounds = before ++ [last] → ¬ReachesLast before last) :
    (streamRounds catalogue hasKey rounds a).2 = [] := by
  induction rounds generalizing a with
  | nil => rfl
  | cons round rounds ih =>
      by_cases hmore : rounds = []
      · subst hmore
        have hrefused : round.allowed = false := by
          have hnot := h [] round rfl
          simpa [ReachesLast] using hnot
        simp [streamRounds, hrefused]
      · by_cases hround : round.Answers
        · obtain ⟨a', hkey', -, hrounds⟩ :=
            streamRounds_answers catalogue hkey hround hmore
          rw [hrounds]
          apply ih hkey'
          rintro before last rfl ⟨hbefore, hlast⟩
          exact h (round :: before) last rfl
            ⟨List.forall_mem_cons.mpr ⟨hround, hbefore⟩, hlast⟩
        · exact streamRounds_stops hkey hround hmore

/-! ## The draft -/

/-- The text of the first call that completes. -/
def firstText (calls : ℕ → ProviderCall) : ℕ → List Candidate → String
  | _, [] => ""
  | n, _ :: cs =>
      match (calls n).ending with
      | .completed _ => (calls n).text
      | .raised _ _ => firstText calls (n + 1) cs

theorem tryCandidates_plain {calls : ℕ → ProviderCall} {exhausted : String → String} {n : ℕ}
    {lastError : String} {cs : List Candidate} {r : Router} :
    (tryCandidates (fun n => (calls n).outcome false) exhausted n lastError cs r).2.text =
      firstText calls n cs := by
  induction cs generalizing n lastError r with
  | nil => rfl
  | cons c cs ih =>
      rw [tryCandidates, firstText]
      cases hending : (calls n).ending with
      | completed usage => simp only [ProviderCall.outcome, hending]
      | raised recorded error =>
          simp only [ProviderCall.outcome, hending, Bool.false_and, Bool.false_eq_true, if_false]
          exact ih

/-- A draft that answers while it streams has streamed its text. -/
theorem tryCandidates_streamed {calls : ℕ → ProviderCall} {exhausted : String → String} {n : ℕ}
    {lastError : String} {cs : List Candidate} {r : Router}
    (h : (tryCandidates (fun n => (calls n).outcome true) exhausted n lastError cs r).2.text ≠ "") :
    String.join (streamedTokens calls n cs) =
      (tryCandidates (fun n => (calls n).outcome true) exhausted n lastError cs r).2.text := by
  induction cs generalizing n lastError r with
  | nil => exact absurd rfl h
  | cons c cs ih =>
      rw [tryCandidates] at h ⊢
      rw [streamedTokens]
      cases hending : (calls n).ending with
      | completed usage =>
          simp only [ProviderCall.outcome, hending]
          rfl
      | raised recorded error =>
          simp only [ProviderCall.outcome, hending, Bool.true_and] at h ⊢
          cases htokens : (calls n).tokens with
          | nil =>
              simp only [htokens, List.isEmpty_nil, Bool.not_true, Bool.false_eq_true, if_false]
                at h ⊢
              exact ih h
          | cons token tokens => simp [htokens] at h

theorem tryCandidates_answered {respond : ℕ → CallOutcome} {exhausted : String → String} {n : ℕ}
    {lastError : String} {cs : List Candidate} {r : Router}
    (h : (tryCandidates respond exhausted n lastError cs r).2.text ≠ "") :
    ∃ c, (tryCandidates respond exhausted n lastError cs r).2.answered = some c := by
  induction cs generalizing n lastError r with
  | nil => exact absurd rfl h
  | cons c cs ih =>
      rw [tryCandidates] at h ⊢
      cases houtcome : respond n with
      | completed text usage => exact ⟨c, rfl⟩
      | failed recorded streamed error =>
          simp only [houtcome] at h ⊢
          cases streamed with
          | true => exact absurd rfl h
          | false => exact ih h

theorem firstCall_eq (inv : Invocation) :
    ∃ exhausted, inv.firstCall = tryCandidates inv.respond exhausted 0 "" inv.candidates {} := by
  unfold Invocation.firstCall Invocation.candidates
  cases inv.routing with
  | automatic candidates =>
      simp only [invokeWithFallback]
      split_ifs with hempty
      · rw [hempty]
        exact ⟨fun _ => _, rfl⟩
      · exact ⟨_, rfl⟩
  | configured provider models =>
      simp only [invokeFixed]
      split_ifs
      · exact ⟨_, rfl⟩
      · exact ⟨fun _ => _, rfl⟩

/-! ## Answers -/

namespace StreamedInvocation

variable (x : StreamedInvocation)

/-- The text of a draft that is not streamed. -/
def draftText : String := firstText x.draft 0 x.invocation.candidates

/-- The last tool round is reached, and its call fails after tokens that are not the text that
the earlier rounds have left. -/
def LastStreamBreaks : Prop :=
  ∃ before last, x.loopRounds = before ++ [last] ∧ ReachesLast before last ∧
    ¬last.call.Completes ∧ last.call.tokens ≠ [] ∧ last.call.text ≠ keptText x.draftText before

theorem run_of_answered {c : Candidate} (hanswered : x.invocation.firstCall.2.answered = some c)
    (htext : x.invocation.firstCall.2.text ≠ "") :
    x.run = (if x.succeeds then
        some (streamRounds x.catalogue x.hasKey x.loopRounds (x.draftAnswer c)).1 else none,
      x.draftTokens ++ (streamRounds x.catalogue x.hasKey x.loopRounds (x.draftAnswer c)).2) := by
  simp only [run, hanswered, htext, if_false]

theorem answered_of_run {a : Answer} (h : x.run.1 = some a) :
    ∃ c, x.invocation.firstCall.2.answered = some c ∧ x.invocation.firstCall.2.text ≠ "" := by
  cases hanswered : x.invocation.firstCall.2.answered with
  | none => simp [run, hanswered] at h
  | some c =>
      refine ⟨c, rfl, ?_⟩
      intro htext
      simp [run, hanswered, htext] at h

theorem answered_of_text (h : x.invocation.firstCall.2.text ≠ "") :
    ∃ c, x.invocation.firstCall.2.answered = some c := by
  obtain ⟨exhausted, heq⟩ := firstCall_eq x.invocation
  rw [heq] at h ⊢
  exact tryCandidates_answered h

theorem firstCall_text_of_loop (h : x.potentialToolLoop = true) :
    x.invocation.firstCall.2.text = x.draftText := by
  obtain ⟨exhausted, heq⟩ := firstCall_eq x.invocation
  have hrespond : x.invocation.respond = fun n => (x.draft n).outcome false := by
    simp only [invocation, h, Bool.not_true]
  rw [heq, hrespond, tryCandidates_plain, draftText]

theorem firstCall_streamed (h : x.potentialToolLoop = false)
    (htext : x.invocation.firstCall.2.text ≠ "") :
    String.join (streamedTokens x.draft 0 x.invocation.candidates) =
      x.invocation.firstCall.2.text := by
  obtain ⟨exhausted, heq⟩ := firstCall_eq x.invocation
  have hrespond : x.invocation.respond = fun n => (x.draft n).outcome true := by
    simp only [invocation, h, Bool.not_false]
  rw [heq, hrespond] at htext ⊢
  exact tryCandidates_streamed htext

/-- If anything was streamed and the request succeeds, the tokens are the answer that is billed
and returned, exactly if the last tool round does not break off its stream. -/
theorem streamed_iff (x : StreamedInvocation) :
    (∀ a, x.run.1 = some a → x.run.2 ≠ [] → String.join x.run.2 = a.text) ↔
      ¬(x.succeeds = true ∧ x.draftText ≠ "" ∧ x.LastStreamBreaks) := by
  constructor
  · rintro hfaithful ⟨hsucceeds, hdraft, before, last, hrounds, hreach, hfails, htokens, hne⟩
    have hloop : x.potentialToolLoop = true := by
      rw [potentialToolLoop, hrounds]
      simp
    rw [← x.firstCall_text_of_loop hloop] at hdraft
    obtain ⟨c, hanswered⟩ := x.answered_of_text hdraft
    have hkey : x.hasKey (x.draftAnswer c).provider = true :=
      ((firstCall_spec x.invocation).2 c hanswered).1
    obtain ⟨hstreamed, -, hkept⟩ :=
      streamRounds_of_reachesLast x.catalogue hkey hreach
    rw [x.run_of_answered hanswered hdraft, hsucceeds, hrounds, draftTokens, hloop, if_pos rfl,
      if_pos rfl, List.nil_append, hstreamed] at hfaithful
    apply hne
    rw [← x.firstCall_text_of_loop hloop]
    exact (hfaithful _ rfl htokens).trans (hkept hfails)
  · intro hok a ha htokens
    obtain ⟨c, hanswered, htext⟩ := x.answered_of_run ha
    have hkey : x.hasKey (x.draftAnswer c).provider = true :=
      ((firstCall_spec x.invocation).2 c hanswered).1
    rw [x.run_of_answered hanswered htext] at ha htokens ⊢
    cases hsucceeds : x.succeeds with
    | false => simp [hsucceeds] at ha
    | true =>
        rw [hsucceeds, if_pos rfl] at ha
        obtain rfl := Option.some.inj ha
        cases hloop : x.potentialToolLoop with
        | false =>
            have hrounds : x.loopRounds = [] := by
              simpa [potentialToolLoop] using hloop
            simp only [hrounds, draftTokens, hloop, Bool.false_eq_true, if_false, streamRounds,
              List.append_nil]
            exact x.firstCall_streamed hloop htext
        | true =>
            simp only [draftTokens, hloop, if_true, List.nil_append] at htokens ⊢
            by_cases hreach : ∃ before last, x.loopRounds = before ++ [last] ∧
                ReachesLast before last
            · obtain ⟨before, last, hrounds, hreach⟩ := hreach
              obtain ⟨hstreamed, hanswer, hkept⟩ :=
                streamRounds_of_reachesLast x.catalogue hkey hreach
              rw [hrounds] at htokens ⊢
              rw [hstreamed] at htokens ⊢
              by_cases hcompletes : last.call.Completes
              · rw [hanswer hcompletes, keptText_singleton htokens]
                rfl
              · rw [hkept hcompletes]
                by_contra hne
                refine hok ⟨hsucceeds, ?_, before, last, hrounds, hreach, hcompletes, htokens, ?_⟩
                · rwa [← x.firstCall_text_of_loop hloop]
                · rwa [← x.firstCall_text_of_loop hloop]
            · refine absurd (streamRounds_of_not_reachesLast hkey ?_) htokens
              intro before last hrounds hlast
              exact hreach ⟨before, last, hrounds, hlast⟩

end StreamedInvocation

/-! ## A stream that breaks off -/

def searchTool : ToolRow where
  id := 1
  name := "Search"
  schema := .obj [("_zyntry_custom", .obj [("read_only", .bool true)])]
  implementation := none
  projectId := some 1

/-- A draft and one tool round, whose call sends a token and raises. -/
def brokenStream : StreamedInvocation where
  tools :=
    { runtime := none, user := ⟨1, false, .null⟩, scopes := ["read"], request := {},
      tools := [searchTool] }
  catalogue := fun _ _ => { inputPricePer1k := 5 / 1000, outputPricePer1k := 15 / 1000 }
  hasKey := fun _ => true
  routing := .configured .openai ["gpt-4o"]
  draft := fun _ => ⟨["Draft"], .completed { inputTokens := 1, outputTokens := 1 }⟩
  rounds := fun _ => ⟨true, ["Accord"], .raised false "connection reset"⟩
  succeeds := true
  estimated := { inputTokens := 0, outputTokens := 0 }

theorem brokenStream_differs :
    ∃ a, brokenStream.run.1 = some a ∧ a.text = "Draft" ∧ brokenStream.run.2 = ["Accord"] :=
  ⟨_, rfl, by decide +kernel, by decide +kernel⟩

end Zyntry
