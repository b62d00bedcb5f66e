import Zyntry.WatcherPolls
import Mathlib.Data.List.Nodup

/-!
# One cursor for all lists

A filtered request asks for what is stamped later than the cursor was when the poll began. An
item that is stamped no later than the cursor, and that no request and no answer still holds,
is never asked for again. `Favourable` is the condition on a step under which no item gets
there unemitted, no item is emitted twice and the cursor only moves forwards.
-/

namespace Zyntry

open StepRuns

section Cursor

variable {τ : Type*} [LinearOrder τ] (instant : String → τ)

def WatchedItem.Later (v : WatchedItem) (since : Option String) : Prop :=
  ∀ k, since = some k → v.stamp ≠ "" ∧ instant k < instant v.stamp

instance (v : WatchedItem) : (since : Option String) → Decidable (v.Later instant since)
  | none => .isTrue fun _ hk => by cases hk
  | some k => decidable_of_iff (v.stamp ≠ "" ∧ instant k < instant v.stamp)
      ⟨fun h _ hk => Option.some.inj hk ▸ h, fun h => h k rfl⟩

def WatchRequest.Asks (r : WatchRequest) (v : WatchedItem) : Prop :=
  r.list = v.list ∧ v.Later instant r.since

instance (r : WatchRequest) (v : WatchedItem) : Decidable (r.Asks instant v) :=
  inferInstanceAs (Decidable (_ ∧ _))

namespace WatchState

variable (c : WatcherConfig)

/-- The running poll has the item in hand, or has still to ask for it. -/
def Expects (s : WatchState) (v : WatchedItem) : Prop :=
  v ∈ s.rows ∨ ∃ r ∈ s.requests, r.Asks instant v

/-- The item is there, and is reached through the cursor only. -/
structure Unseen (s : WatchState) (v : WatchedItem) : Prop where
  current : v ∈ s.items
  watched : v.list ∈ c.lists
  filtered : v.list.filtered = true
  unemitted : v ∉ s.emitted

/-- An answer holds items that were asked for, each once, and all of them unless the page is
full. -/
def Honest (s : WatchState) : WatchEvent → Prop
  | .answer ok rows => ∀ r requests, s.rows = [] → s.requests = r :: requests →
      r.list.accepts ok = true → rows.Nodup ∧ (∀ v ∈ rows, r.Asks instant v) ∧
        ∀ v ∈ s.items, r.Asks instant v → v ∈ rows ∨ r.limit = some rows.length
  | _ => True

/-- The item that is handled has a stamp, no earlier than the cursor, and what the poll does not
hold is stamped later. An item of a list without a filter was not emitted before. -/
structure Passes (s : WatchState) (v : WatchedItem) (rows : List WatchedItem)
    (delivered : Bool) : Prop where
  stamped : v.list.filtered = true → v.stamp ≠ ""
  new : v.list.filtered = false → delivered = true → v ∉ s.emitted
  forward : v.stamp ≠ "" → ∀ k, s.cursor = some k → instant k ≤ instant v.stamp
  leaves : v.stamp ≠ "" → ∀ u, s.Unseen c u → (u = v → delivered = false) → u ∉ rows →
    (∀ r ∈ s.requests, ¬r.Asks instant u) → u.Later instant (some v.stamp)

/-- A change is stamped later than the cursor or still expected; the first polls of a channel
reach back to its unseen messages; what an answer leaves out, or a poll that ends early drops,
is stamped later than the cursor. -/
def Favourable (s : WatchState) : WatchEvent → Prop
  | .edit items => ∀ v, Unseen c { s with items } v →
      s.Expects instant v ∨ v.Later instant s.cursor
  | .poll now => s.Idle → s.cursor = none → ∀ v, s.Unseen c v →
      ∀ r ∈ c.requests now none, r.list = v.list → v.Later instant r.since
  | .answer ok rows => ∀ r requests, s.rows = [] → s.requests = r :: requests →
      ∀ v, s.Unseen c v → r.Asks instant v → (r.list.accepts ok = true → v ∉ rows) →
        v.Later instant s.cursor
  | .handle delivered => ∀ v rows, s.rows = v :: rows → s.Passes instant c v rows delivered
  | .abort => ∀ v, s.Unseen c v → s.Expects instant v → v.Later instant s.cursor

/-- What a step has to keep: nothing is emitted twice, the cursor does not move backwards, and a
poll asks for every item that is not emitted. -/
structure PollSound (s : WatchState) (e : WatchEvent) : Prop where
  once : (s.step c e).emitted.Nodup
  forward : ∀ k, s.cursor = some k →
    ∃ k', (s.step c e).cursor = some k' ∧ instant k ≤ instant k'
  asked : ∀ now, e = .poll now → s.Idle → ∀ v ∈ s.items, v.list ∈ c.lists → v ∉ s.emitted →
    ∃ r ∈ (s.step c e).requests, r.Asks instant v

/-! ## The invariant -/

structure CursorInv (s : WatchState) : Prop where
  emittedNodup : s.emitted.Nodup
  rowsNodup : s.rows.Nodup
  listsNodup : (s.requests.map WatchRequest.list).Nodup
  rowsAsked : ∀ v ∈ s.rows, v.list ∉ s.requests.map WatchRequest.list
  rowsNew : ∀ v ∈ s.rows, v.list.filtered = true → v ∉ s.emitted
  emittedOld : ∀ v ∈ s.emitted, v.list.filtered = true →
    ∃ k, s.cursor = some k ∧ v.stamp ≠ "" ∧ instant v.stamp ≤ instant k
  requestsOld : ∀ v ∈ s.emitted, v.list.filtered = true → ∀ r ∈ s.requests, ¬r.Asks instant v
  safe : ∀ v, s.Unseen c v → s.Expects instant v ∨ v.Later instant s.cursor

variable {instant c} {s : WatchState}

theorem CursorInv.edit (h : s.CursorInv instant c) {items : List WatchedItem}
    (hedit : s.Favourable instant c (.edit items)) :
    CursorInv instant c (s.step c (.edit items)) where
  emittedNodup := h.emittedNodup
  rowsNodup := h.rowsNodup
  listsNodup := h.listsNodup
  rowsAsked := h.rowsAsked
  rowsNew := h.rowsNew
  emittedOld := h.emittedOld
  requestsOld := h.requestsOld
  safe := hedit

theorem not_later_of_le {v : WatchedItem} {k : String} (h : instant v.stamp ≤ instant k) :
    ¬v.Later instant (some k) := fun hlater => (hlater k rfl).2.not_ge h

/-- A poll asks for every item that is not emitted. -/
theorem CursorInv.asked (h : s.CursorInv instant c) {now : ℤ} (hidle : s.Idle)
    (hpoll : s.Favourable instant c (.poll now)) {v : WatchedItem} (hv : v ∈ s.items)
    (hlist : v.list ∈ c.lists) (hnew : v ∉ s.emitted) :
    ∃ r ∈ c.requests now s.cursor, r.Asks instant v := by
  rw [← c.map_list_requests now s.cursor] at hlist
  obtain ⟨r, hr, hrlist⟩ := List.mem_map.mp hlist
  refine ⟨r, hr, hrlist, ?_⟩
  obtain ⟨hcursor, hnone⟩ := WatcherConfig.since_requests hr
  rw [hrlist] at hcursor hnone
  cases hfiltered : v.list.filtered with
  | false =>
    rw [hnone hfiltered]
    intro k hk
    cases hk
  | true =>
    have hunseen : s.Unseen c v := ⟨hv, by rw [← c.map_list_requests now s.cursor]; exact hlist,
      hfiltered, hnew⟩
    cases hk : s.cursor with
    | none =>
      rw [hk] at hr
      exact hpoll hidle hk v hunseen r hr hrlist
    | some k =>
      rw [hcursor hfiltered k hk, ← hk]
      refine (h.safe v hunseen).resolve_left ?_
      rintro (hrow | ⟨r', hr', -⟩)
      · rw [hidle.1] at hrow
        cases hrow
      · rw [hidle.2] at hr'
        cases hr'

theorem CursorInv.poll (h : s.CursorInv instant c) (hlists : c.lists.Nodup) (now : ℤ) :
    CursorInv instant c (s.step c (.poll now)) := by
  unfold step
  by_cases hidle : s.Idle
  · dsimp only
    rw [if_pos hidle]
    exact {
      emittedNodup := h.emittedNodup
      rowsNodup := h.rowsNodup
      listsNodup := by
        rw [c.map_list_requests now s.cursor]
        exact hlists
      rowsAsked := by
        intro v hv
        rw [hidle.1] at hv
        cases hv
      rowsNew := h.rowsNew
      emittedOld := h.emittedOld
      requestsOld := by
        intro v hv hfiltered r hr hasks
        obtain ⟨k, hk, -, hle⟩ := h.emittedOld v hv hfiltered
        have hsince := (WatcherConfig.since_requests hr).1 (by rw [hasks.1]; exact hfiltered) k hk
        have hlater := hasks.2
        rw [hsince] at hlater
        exact not_later_of_le hle hlater
      safe := by
        intro v hv
        obtain hexpects | hlater := h.safe v ⟨hv.current, hv.watched, hv.filtered, hv.unemitted⟩
        · obtain hrow | ⟨r, hr, -⟩ := hexpects
          · exact .inl (.inl hrow)
          · rw [hidle.2] at hr
            cases hr
        · exact .inr hlater }
  · dsimp only
    rw [if_neg hidle]
    exact h

theorem CursorInv.answer (h : s.CursorInv instant c) {ok : Bool} {rows : List WatchedItem}
    (hhonest : s.Honest instant (.answer ok rows))
    (hanswer : s.Favourable instant c (.answer ok rows)) :
    CursorInv instant c (s.step c (.answer ok rows)) := by
  cases hrows : s.rows with
  | cons v rest =>
    simp only [step, hrows]
    exact h
  | nil =>
    cases hrequests : s.requests with
    | nil =>
      simp only [step, hrows, hrequests]
      exact h
    | cons r requests =>
      have hnodup := h.listsNodup
      rw [hrequests, List.map_cons, List.nodup_cons] at hnodup
      have hleft := hanswer r requests hrows hrequests
      have hgood := hhonest r requests hrows hrequests
      -- Only the items of an accepted answer are looked at.
      have hkept : ∀ v ∈ (if r.list.accepts ok then rows else []),
          r.list.accepts ok = true ∧ v ∈ rows := by
        intro v hv
        split_ifs at hv with hok
        · exact ⟨hok, hv⟩
        · cases hv
      simp only [step, hrows, hrequests]
      exact {
        emittedNodup := h.emittedNodup
        rowsNodup := by
          dsimp only
          split_ifs with hok
          · exact (hgood hok).1
          · exact List.nodup_nil
        listsNodup := hnodup.2
        rowsAsked := by
          intro v hv
          obtain ⟨hok, hv⟩ := hkept v hv
          rw [← ((hgood hok).2.1 v hv).1]
          exact hnodup.1
        rowsNew := by
          intro v hv hfiltered hemitted
          obtain ⟨hok, hv⟩ := hkept v hv
          have hr : r ∈ s.requests := by rw [hrequests]; exact List.mem_cons_self
          exact h.requestsOld v hemitted hfiltered r hr ((hgood hok).2.1 v hv)
        emittedOld := h.emittedOld
        requestsOld := by
          intro v hv hfiltered r' hr'
          apply h.requestsOld v hv hfiltered
          rw [hrequests]
          exact List.mem_cons_of_mem r hr'
        safe := by
          intro v hv
          have hunseen : s.Unseen c v := ⟨hv.current, hv.watched, hv.filtered, hv.unemitted⟩
          obtain (hrow | ⟨r', hr', hasks⟩) | hlater := h.safe v hunseen
          · rw [hrows] at hrow
            cases hrow
          · rw [hrequests] at hr'
            obtain rfl | hr' := List.mem_cons.mp hr'
            · by_cases hin : r'.list.accepts ok = true ∧ v ∈ rows
              · refine .inl (.inl ?_)
                dsimp only
                rw [if_pos hin.1]
                exact hin.2
              · exact .inr (hleft v hunseen hasks fun hok hmem => hin ⟨hok, hmem⟩)
            · exact .inl (.inr ⟨r', hr', hasks⟩)
          · exact .inr hlater }

theorem CursorInv.handle (h : s.CursorInv instant c) {delivered : Bool}
    (hhandle : s.Favourable instant c (.handle delivered)) :
    CursorInv instant c (s.step c (.handle delivered)) := by
  cases hrows : s.rows with
  | nil =>
    simp only [step, hrows]
    exact h
  | cons v rows =>
    obtain ⟨hstamped, hnew, hforward, hleaves⟩ := hhandle v rows hrows
    have hv : v ∈ s.rows := by rw [hrows]; exact List.mem_cons_self
    have hrest : ∀ u ∈ rows, u ∈ s.rows := by
      intro u hu
      rw [hrows]
      exact List.mem_cons_of_mem v hu
    have hnodup := h.rowsNodup
    rw [hrows, List.nodup_cons] at hnodup
    have hunemitted : delivered = true → v ∉ s.emitted := by
      intro hdelivered
      cases hfiltered : v.list.filtered with
      | true => exact h.rowsNew v hv hfiltered
      | false => exact hnew hfiltered hdelivered
    have hemitted : ∀ u ∈ (if delivered then s.emitted ++ [v] else s.emitted),
        u ∈ s.emitted ∨ u = v := by
      intro u hu
      split_ifs at hu
      · obtain hu | hu := List.mem_append.mp hu
        · exact .inl hu
        · exact .inr (List.mem_singleton.mp hu)
      · exact .inl hu
    simp only [step, hrows]
    exact {
      emittedNodup := by
        dsimp only
        split_ifs with hdelivered
        · rw [← List.concat_eq_append, List.nodup_concat]
          exact ⟨hunemitted hdelivered, h.emittedNodup⟩
        · exact h.emittedNodup
      rowsNodup := hnodup.2
      listsNodup := h.listsNodup
      rowsAsked := fun u hu => h.rowsAsked u (hrest u hu)
      rowsNew := by
        intro u hu hfiltered hmem
        obtain hold | rfl := hemitted u hmem
        · exact h.rowsNew u (hrest u hu) hfiltered hold
        · exact hnodup.1 hu
      emittedOld := by
        intro u hu hfiltered
        obtain hold | rfl := hemitted u hu
        · obtain ⟨k, hk, hstamp, hle⟩ := h.emittedOld u hold hfiltered
          by_cases hempty : v.stamp = ""
          · exact ⟨k, (if_pos hempty).trans hk, hstamp, hle⟩
          · exact ⟨v.stamp, if_neg hempty, hstamp, hle.trans (hforward hempty k hk)⟩
        · exact ⟨u.stamp, if_neg (hstamped hfiltered), hstamped hfiltered, le_rfl⟩
      requestsOld := by
        intro u hu hfiltered r hr hasks
        obtain hold | rfl := hemitted u hu
        · exact h.requestsOld u hold hfiltered r hr hasks
        · exact h.rowsAsked u hv (hasks.1 ▸ List.mem_map_of_mem hr)
      safe := by
        intro u hu
        have hold : u ∉ s.emitted := by
          intro hmem
          apply hu.unemitted
          dsimp only
          split_ifs
          · exact List.mem_append_left _ hmem
          · exact hmem
        have hunseen : s.Unseen c u := ⟨hu.current, hu.watched, hu.filtered, hold⟩
        have hlost : u = v → delivered = false := by
          rintro rfl
          cases hdelivered : delivered with
          | false => rfl
          | true =>
            refine absurd ?_ hu.unemitted
            simp [hdelivered]
        by_cases hrow : u ∈ rows
        · exact .inl (.inl hrow)
        · by_cases hask : ∃ r ∈ s.requests, r.Asks instant u
          · exact .inl (.inr hask)
          · refine .inr ?_
            by_cases hempty : v.stamp = ""
            · -- The cursor stays, and the item that is handled has no filter.
              obtain (hmem | ⟨r, hr, hasks⟩) | hlater := h.safe u hunseen
              · rw [hrows] at hmem
                obtain rfl | hmem := List.mem_cons.mp hmem
                · exact absurd hempty (hstamped hu.filtered)
                · exact absurd hmem hrow
              · exact absurd ⟨r, hr, hasks⟩ hask
              · dsimp only
                rw [advance, if_pos hempty]
                exact hlater
            · dsimp only
              rw [advance, if_neg hempty]
              exact hleaves hempty u hunseen hlost hrow fun r hr hasks => hask ⟨r, hr, hasks⟩ }

theorem CursorInv.abort (h : s.CursorInv instant c)
    (habort : s.Favourable instant c .abort) : CursorInv instant c (s.step c .abort) where
  emittedNodup := h.emittedNodup
  rowsNodup := List.nodup_nil
  listsNodup := List.nodup_nil
  rowsAsked := fun _ hv => absurd hv List.not_mem_nil
  rowsNew := fun _ hv => absurd hv List.not_mem_nil
  emittedOld := h.emittedOld
  requestsOld := fun _ _ _ _ hr => absurd hr List.not_mem_nil
  safe := by
    intro v hv
    have hunseen : s.Unseen c v := ⟨hv.current, hv.watched, hv.filtered, hv.unemitted⟩
    obtain hexpects | hlater := h.safe v hunseen
    · exact .inr (habort v hunseen hexpects)
    · exact .inr hlater

/-- The step lemma. -/
theorem CursorInv.step (h : s.CursorInv instant c) (hlists : c.lists.Nodup) {e : WatchEvent}
    (hhonest : s.Honest instant e) (hfavourable : s.Favourable instant c e) :
    CursorInv instant c (s.step c e) := by
  cases e with
  | edit items => exact h.edit hfavourable
  | poll now => exact h.poll hlists now
  | answer ok rows => exact h.answer hhonest hfavourable
  | handle delivered => exact h.handle hfavourable
  | abort => exact h.abort hfavourable

/-- Only a handled item moves the cursor, and it moves it forwards. -/
theorem forward_of_favourable {e : WatchEvent} (h : s.Favourable instant c e) {k : String}
    (hk : s.cursor = some k) :
    ∃ k', (s.step c e).cursor = some k' ∧ instant k ≤ instant k' := by
  cases e with
  | edit items => exact ⟨k, hk, le_rfl⟩
  | poll now =>
    refine ⟨k, ?_, le_rfl⟩
    simp only [WatchState.step]
    split_ifs <;> exact hk
  | answer ok rows =>
    refine ⟨k, ?_, le_rfl⟩
    simp only [WatchState.step]
    split <;> exact hk
  | handle delivered =>
    cases hrows : s.rows with
    | nil =>
      simp only [WatchState.step, hrows]
      exact ⟨k, hk, le_rfl⟩
    | cons v rows =>
      simp only [WatchState.step, hrows]
      by_cases hempty : v.stamp = ""
      · exact ⟨k, (if_pos hempty).trans hk, le_rfl⟩
      · exact ⟨v.stamp, if_neg hempty, (h v rows hrows).forward hempty k hk⟩
  | abort => exact ⟨k, hk, le_rfl⟩

theorem CursorInv.pollSound (h : s.CursorInv instant c) (hlists : c.lists.Nodup) {e : WatchEvent}
    (hhonest : s.Honest instant e) (hfavourable : s.Favourable instant c e) :
    s.PollSound instant c e where
  once := (h.step hlists hhonest hfavourable).emittedNodup
  forward := fun _ hk => forward_of_favourable hfavourable hk
  asked := by
    rintro now rfl hidle v hv hlist hnew
    simp only [WatchState.step, if_pos hidle]
    exact h.asked hidle hfavourable hv hlist hnew

/-! ## A poll that is answered in full -/

/-- The item stays, no answer is refused or fills a page, and nothing gets lost. -/
def Completes (v : WatchedItem) (s : WatchState) : WatchEvent → Prop
  | .edit items => v ∈ items
  | .poll _ => True
  | .answer ok rows => ∀ r requests, s.rows = [] → s.requests = r :: requests →
      r.list.accepts ok = true ∧ r.limit ≠ some rows.length
  | .handle delivered => delivered = true
  | .abort => False

variable (instant) in
/-- The item is emitted, or the poll will get to it. -/
def Reaches (v : WatchedItem) (s : WatchState) : Prop :=
  v ∈ s.items ∧ (v ∈ s.emitted ∨ s.Expects instant v)

theorem Reaches.step {v : WatchedItem} (h : s.Reaches instant v) {e : WatchEvent}
    (hhonest : s.Honest instant e) (hcompletes : s.Completes v e) :
    (s.step c e).Reaches instant v := by
  obtain ⟨hitems, hreached⟩ := h
  cases e with
  | edit items => exact ⟨hcompletes, hreached⟩
  | poll now =>
    simp only [WatchState.step]
    split_ifs with hidle
    · refine ⟨hitems, hreached.imp_right ?_⟩
      rintro (hrow | ⟨r, hr, -⟩)
      · exact .inl hrow
      · rw [hidle.2] at hr
        cases hr
    · exact ⟨hitems, hreached⟩
  | answer ok rows =>
    cases hrows : s.rows with
    | cons u rest =>
      simp only [WatchState.step, hrows]
      exact ⟨hitems, hreached⟩
    | nil =>
      cases hrequests : s.requests with
      | nil =>
        simp only [WatchState.step, hrows, hrequests]
        exact ⟨hitems, hreached⟩
      | cons r requests =>
        obtain ⟨hok, hfits⟩ := hcompletes r requests hrows hrequests
        obtain ⟨-, -, hall⟩ := hhonest r requests hrows hrequests hok
        simp only [WatchState.step, hrows, hrequests, if_pos hok]
        refine ⟨hitems, hreached.imp_right ?_⟩
        rintro (hrow | ⟨r', hr', hasks⟩)
        · rw [hrows] at hrow
          cases hrow
        · rw [hrequests] at hr'
          obtain rfl | hr' := List.mem_cons.mp hr'
          · exact .inl ((hall v hitems hasks).resolve_right hfits)
          · exact .inr ⟨r', hr', hasks⟩
  | handle delivered =>
    have hdelivered : delivered = true := hcompletes
    subst hdelivered
    cases hrows : s.rows with
    | nil =>
      simp only [WatchState.step, hrows]
      exact ⟨hitems, hreached⟩
    | cons u rows =>
      simp only [WatchState.step, hrows, if_true]
      refine ⟨hitems, ?_⟩
      obtain hemitted | hrow | hasked := hreached
      · exact .inl (List.mem_append_left _ hemitted)
      · rw [hrows] at hrow
        obtain rfl | hrow := List.mem_cons.mp hrow
        · exact .inl (List.mem_append_right _ (List.mem_singleton_self _))
        · exact .inr (.inl hrow)
      · exact .inr (.inr hasked)
  | abort => exact hcompletes.elim

/-- Nothing has been polled yet. -/
def start (items : List WatchedItem) : WatchState := { items }

theorem cursorInv_start (items : List WatchedItem) : CursorInv instant c (start items) where
  emittedNodup := List.nodup_nil
  rowsNodup := List.nodup_nil
  listsNodup := List.nodup_nil
  rowsAsked := fun _ hv => absurd hv List.not_mem_nil
  rowsNew := fun _ hv => absurd hv List.not_mem_nil
  emittedOld := fun _ hv => absurd hv List.not_mem_nil
  requestsOld := fun _ hv => absurd hv List.not_mem_nil
  safe := fun _ _ => .inr fun _ hk => by cases hk

def clock (stamp : String) : ℕ :=
  ([("5", 5), ("6", 6), ("7", 7)].lookup stamp).getD 0

def supportChannel : WatcherConfig := .slack "token" "support"

def supportMessage (ts : String) : WatchedItem := ⟨.slackMessages "support", [("ts", some ts)]⟩

def firstPoll : List WatchEvent :=
  [.poll 86400, .answer true [supportMessage "5"], .handle true, .answer true []]

def shopTables : WatcherConfig := .postgres "dsn" [some "users", some "orders"]

def shopRow (table updatedAt : String) : WatchedItem :=
  ⟨.postgresTable ("\"" ++ table ++ "\""), [("updated_at", some updatedAt)]⟩

def newestFirst : List WatchEvent :=
  [.poll 86400, .answer true [supportMessage "6", supportMessage "5"], .handle true,
    .handle true, .answer true [], .poll 86460, .answer true [supportMessage "6"], .handle true]

def failedPoll : List WatchEvent :=
  [.poll 0, .answer true [shopRow "users" "5"], .handle true, .answer true [],
    .edit [shopRow "users" "7", shopRow "orders" "6"], .poll 90,
    .answer true [shopRow "users" "7"], .handle true, .abort, .poll 180]

end WatchState

end Cursor

end Zyntry
