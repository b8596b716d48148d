import Barry.Lib.Lists
import Barry.Lib.Runs

/-!
# Waiting for a queue

`DataQueue` (`dataqueue.cc`) guards its items with one mutex, and the condition its readers wait for
with another. `wait_pop` looks for an item under the first, gives it up, and then waits under the
second. `push` inserts under the first, and then broadcasts under the second. `append_from` holds
the first mutex of its own queue, and then of the other one, and does not broadcast.

A step is what one call does under one mutex, so a run of labels is any interleaving of the calls. A
call that finds a mutex locked stays where it is. A wait may end without a broadcast.

A wait with a timeout ends at a time that `ThreadTimeout` (`time.cc`) makes of the present one. It
adds the parts below a second without a carry, and `pthread_cond_timedwait` refuses what is a second
or more (`meets_threadTimeout_iff`).
-/

namespace Barry.WaitPop

/-- How an item leaves a queue. -/
inductive Exit
  | popped
  | appended
  deriving DecidableEq

/-- `m_queue`. The items that were inserted, and those that left, are remembered. -/
structure Queue (α : Type) where
  items : List α
  inserted : List α
  left : List (α × Exit)
  deriving DecidableEq

namespace Queue

variable {α : Type} (q : Queue α)

/-- `raw_push`, of some items. -/
def rawPush (items : List α) : Queue α :=
  { q with
    items := q.items ++ items
    inserted := q.inserted ++ items }

/-- `raw_pop`. -/
def rawPop : Option (α × Queue α) :=
  match q.items with
  | [] => none
  | a :: items => some (a, { q with
      items := items
      left := q.left ++ [(a, .popped)] })

/-- What `append_from` leaves of the other queue. -/
def takeAll : Queue α :=
  { q with
    items := []
    left := q.left ++ q.items.map (·, .appended) }

/-- The items that were popped, in order. -/
def popped : List α :=
  (q.left.filter (·.2 = .popped)).map Prod.fst

/-- First in, first out. -/
def Fifo : Prop :=
  q.inserted = q.left.map Prod.fst ++ q.items

variable {q}

/-- What `raw_pop` takes is the first item. -/
theorem rawPop_eq_some {q' : Queue α} {item : α} (h : q.rawPop = some (item, q')) :
    q.items = item :: q'.items ∧ q'.inserted = q.inserted ∧
    q'.left = q.left ++ [(item, .popped)] := by
  unfold rawPop at h
  split at h
  · cases h
  · rename_i item' items hitems
    obtain ⟨rfl, rfl⟩ := Prod.mk.inj (Option.some.inj h)
    exact ⟨hitems, rfl, rfl⟩

theorem fifo_rawPop {q' : Queue α} {item : α} (h : q.Fifo) (hpop : q.rawPop = some (item, q')) :
    q'.Fifo ∧ q'.popped = q.popped ++ [item] := by
  obtain ⟨hitems, hinserted, hleft⟩ := rawPop_eq_some hpop
  constructor
  · rw [Fifo, hinserted, h, hleft, hitems, List.map_append, List.append_assoc]
    rfl
  · rw [popped, popped, hleft, List.filter_append, List.map_append]
    rfl

theorem Fifo.rawPush (h : q.Fifo) (items : List α) : (q.rawPush items).Fifo := by
  rw [Fifo, Queue.rawPush, h, List.append_assoc]

theorem Fifo.takeAll (h : q.Fifo) : q.takeAll.Fifo := by
  rw [Fifo, Queue.takeAll, h]
  simp [Function.comp_def]

/-- What is appended elsewhere is not popped. -/
theorem popped_takeAll : q.takeAll.popped = q.popped := by
  simp [popped, takeAll, List.filter_map, Function.comp_def]

end Queue

/-- Where a call is, by the index of its queue. -/
inductive Call (α : Type)
  /-- `push`, ahead of the insertion. -/
  | push (q : ℕ) (item : α)
  /-- Behind it, ahead of the broadcast. -/
  | inserted (q : ℕ)
  /-- `append_from`, ahead of both locks. -/
  | append (q other : ℕ)
  /-- With the lock of its own queue. -/
  | locked (q other : ℕ)
  /-- `wait_pop`, ahead of the first look. -/
  | waitPop (q : ℕ)
  /-- It found nothing, and holds no lock. -/
  | empty (q : ℕ)
  /-- In `pthread_cond_wait`. -/
  | blocked (q : ℕ)
  /-- Behind it, ahead of the next look. -/
  | woken (q : ℕ)
  /-- It returned an item. -/
  | popped (q : ℕ) (item : α)
  /-- It returned nothing. -/
  | done
  deriving DecidableEq

/-- A call that waits for a queue hears its broadcast. -/
def Call.hear {α : Type} (q : ℕ) : Call α → Call α
  | .blocked q' => if q' = q then .woken q' else .blocked q'
  | c => c

/-- Queues, and calls on them. -/
structure State (α : Type) where
  queues : ℕ → Queue α
  calls : List (Call α)

/-- A new call, the next step of one, or the end of a wait without a broadcast. -/
inductive Label (α : Type)
  | push (q : ℕ) (item : α)
  | appendFrom (q other : ℕ)
  | waitPop (q : ℕ)
  | step (i : ℕ)
  | wake (i : ℕ)

namespace State

variable {α : Type}

/-- A call goes on. -/
def setCall (s : State α) (i : ℕ) (c : Call α) : State α :=
  { s with calls := s.calls.set i c }

/-- A queue changes. -/
def setQueue (s : State α) (q : ℕ) (queue : Queue α) : State α :=
  { s with queues := Function.update s.queues q queue }

/-- A new call. -/
def newCall (s : State α) (c : Call α) : State α :=
  { s with calls := s.calls ++ [c] }

/-- If the items of a queue are locked by an `append_from` that waits for another lock. -/
def isLocked (s : State α) (q : ℕ) : Bool :=
  s.calls.any fun
    | .locked q' _ => q' == q
    | _ => false

/-- `pthread_cond_broadcast`. -/
def broadcast (s : State α) (q : ℕ) : State α :=
  { s with calls := s.calls.map (Call.hear q) }

/-- A look for an item under the lock : `wait_pop` returns it, or goes on to wait. -/
def look (s : State α) (i q : ℕ) : State α :=
  if s.isLocked q then s
  else
    match (s.queues q).rawPop with
    | some (item, queue) => (s.setQueue q queue).setCall i (.popped q item)
    | none => s.setCall i (.empty q)

/-- `append_from`, with both locks. -/
def appendFrom (s : State α) (i q other : ℕ) : State α :=
  if s.isLocked other then s
  else
    ((s.setQueue q ((s.queues q).rawPush (s.queues other).items)).setQueue other
      (s.queues other).takeAll).setCall i .done

/-- What a call does next. -/
def stepCall (s : State α) (i : ℕ) : Call α → State α
  | .push q item =>
    if s.isLocked q then s
    else (s.setQueue q ((s.queues q).rawPush [item])).setCall i (.inserted q)
  | .inserted q => (s.broadcast q).setCall i .done
  | .append q other => if s.isLocked q then s else s.setCall i (.locked q other)
  | .locked q other => s.appendFrom i q other
  | .waitPop q | .woken q => s.look i q
  | .empty q => s.setCall i (.blocked q)
  | .blocked _ | .popped _ _ | .done => s

/-- A wait ends without a broadcast. -/
def wake (s : State α) (i : ℕ) : State α :=
  match s.calls[i]? with
  | some (.blocked q) => s.setCall i (.woken q)
  | _ => s

def step (s : State α) : Label α → State α
  | .push q item => s.newCall (.push q item)
  | .appendFrom q other => s.newCall (.append q other)
  | .waitPop q => s.newCall (.waitPop q)
  | .step i => (s.calls[i]?).elim s (s.stepCall i)
  | .wake i => s.wake i

/-- Empty queues, and no calls. -/
def start : State α :=
  ⟨fun _ => ⟨[], [], []⟩, []⟩

/-- The state a run of labels leaves. -/
def run (labels : List (Label α)) : State α :=
  labels.foldl step start

/-! ## What is lost -/

/-- A call waits for an item that is there, and no call is about to tell it. -/
def LostWakeup (s : State α) (q : ℕ) : Prop :=
  .blocked q ∈ s.calls ∧ (s.queues q).items ≠ [] ∧ .inserted q ∉ s.calls

/-- The item a call returned from a queue. -/
def result (q : ℕ) : Call α → Option α
  | .popped q' item => if q' = q then some item else none
  | _ => none

/-- Items leave a queue in the order they were inserted in, and each one that is
popped is returned by one call. -/
structure Exact (s : State α) (q : ℕ) : Prop where
  fifo : (s.queues q).Fifo
  returned : (s.queues q).popped.Perm (s.calls.filterMap (result q))

/-- A call starts to wait only while there is nothing, or a `push` is about to broadcast, and
`append_from` brings items only where no call waits, or a `push` is about to broadcast. -/
structure Careful (s : State α) (label : Label α) : Prop where
  wait : ∀ i q, label = .step i → s.calls[i]? = some (.empty q) →
    (s.queues q).items = [] ∨ .inserted q ∈ s.calls
  append : ∀ i q other, label = .step i → s.calls[i]? = some (.locked q other) →
    s.isLocked other = false →
      (s.queues other).items = [] ∨ .blocked q ∉ s.calls ∨ .inserted q ∈ s.calls

variable {s s' : State α} {label : Label α} {i q q' other : ℕ} {c c' : Call α} {item : α}

/-! ### Calls and queues of a state -/

@[simp] theorem queues_setCall : (s.setCall i c).queues = s.queues := rfl

@[simp] theorem calls_setCall : (s.setCall i c).calls = s.calls.set i c := rfl

@[simp] theorem calls_newCall : (s.newCall c).calls = s.calls ++ [c] := rfl

/-- What is not lost stays so where no call starts to wait, no items come,
and no broadcast is left out. -/
theorem not_lostWakeup_of (h : ¬ s.LostWakeup q)
    (hblocked : .blocked q ∈ s'.calls → .blocked q ∈ s.calls)
    (hitems : (s'.queues q).items ≠ [] → (s.queues q).items ≠ [] ∨ .inserted q ∈ s'.calls)
    (hinserted : .inserted q ∈ s.calls → .inserted q ∈ s'.calls ∨ .blocked q ∉ s'.calls) :
    ¬ s'.LostWakeup q := by
  rintro ⟨hwait, hne, hnone⟩
  refine h ⟨hblocked hwait, (hitems hne).resolve_right hnone, fun hin => ?_⟩
  exact (hinserted hin).elim hnone (· hwait)

/-- A call that is not about to broadcast goes on, and does not start to wait. -/
theorem not_lostWakeup_setCall (h : ¬ s.LostWakeup q) (hc : s.calls[i]? = some c)
    (hcalls : s'.calls = s.calls.set i c') (hblocked : c' ≠ .blocked q) (hold : c ≠ .inserted q)
    (hitems : (s'.queues q).items ≠ [] → (s.queues q).items ≠ [] ∨ c' = .inserted q) :
    ¬ s'.LostWakeup q := by
  have hin : .inserted q ∈ s'.calls ↔ .inserted q = c' ∨ .inserted q ∈ s.calls := by
    rw [hcalls]
    exact mem_set_iff hc hold.symm
  refine not_lostWakeup_of h (fun hmem => ?_) (fun hne => ?_) fun hmem => .inl (hin.mpr (.inr hmem))
  · rw [hcalls] at hmem
    exact (List.mem_or_eq_of_mem_set hmem).resolve_right hblocked.symm
  · exact (hitems hne).imp_right fun he => hin.mpr (.inl he.symm)

/-! ### Steps that lose nothing -/

theorem items_setQueue_self (queue : Queue α) :
    ((s.setQueue q queue).queues q).items = queue.items := by
  simp [setQueue]

theorem queues_setQueue_of_ne (queue : Queue α) (h : q ≠ q') :
    (s.setQueue q' queue).queues q = s.queues q := by
  simp [setQueue, h]

theorem not_lostWakeup_look (h : ¬ s.LostWakeup q) (hc : s.calls[i]? = some c)
    (hold : c ≠ .inserted q) : ¬ (s.look i q').LostWakeup q := by
  unfold look
  split
  · exact h
  · split
    · rename_i item queue hpop
      refine not_lostWakeup_setCall h hc rfl (by simp) hold fun hne => .inl ?_
      rw [queues_setCall] at hne
      by_cases hq : q = q'
      · rw [hq, (Queue.rawPop_eq_some hpop).1]
        exact List.cons_ne_nil _ _
      · rwa [queues_setQueue_of_ne _ hq] at hne
    · exact not_lostWakeup_setCall h hc rfl (by simp) hold .inl

theorem not_lostWakeup_push (h : ¬ s.LostWakeup q) (hc : s.calls[i]? = some (.push q' item)) :
    ¬ (s.stepCall i (.push q' item)).LostWakeup q := by
  rw [stepCall]
  split
  · exact h
  · refine not_lostWakeup_setCall h hc rfl (by simp) (by simp) fun hne => ?_
    by_cases hq : q = q'
    · exact .inr (by rw [hq])
    · rw [queues_setCall, queues_setQueue_of_ne _ hq] at hne
      exact .inl hne

theorem hear_eq_blocked (h : c.hear q' = .blocked q) : c = .blocked q ∧ q ≠ q' := by
  cases c with
  | blocked q₀ =>
    rw [Call.hear] at h
    split at h
    · cases h
    · rename_i hne
      obtain rfl := Call.blocked.inj h
      exact ⟨rfl, hne⟩
  | _ => cases h

theorem not_lostWakeup_inserted (h : ¬ s.LostWakeup q) (hc : s.calls[i]? = some (.inserted q')) :
    ¬ (s.stepCall i (.inserted q')).LostWakeup q := by
  have hblocked : .blocked q ∈ (s.stepCall i (.inserted q')).calls →
      .blocked q ∈ s.calls ∧ q ≠ q' := by
    intro hmem
    rcases List.mem_or_eq_of_mem_set hmem with hmem | hdone
    · obtain ⟨c, hc, he⟩ := List.mem_map.mp hmem
      obtain ⟨rfl, hne⟩ := hear_eq_blocked he
      exact ⟨hc, hne⟩
    · cases hdone
  refine not_lostWakeup_of h (fun hmem => (hblocked hmem).1) .inl fun hmem => ?_
  by_cases hq : q = q'
  · exact .inr fun hwait => (hblocked hwait).2 hq
  · -- The call that broadcasts is for another queue.
    have hmap : (s.broadcast q').calls[i]? = some (.inserted q') := by
      rw [broadcast, List.getElem?_map, hc]
      rfl
    refine .inl ((mem_set_iff hmap (by simpa using hq)).mpr (.inr ?_))
    exact List.mem_map.mpr ⟨_, hmem, rfl⟩

theorem not_lostWakeup_append (h : ¬ s.LostWakeup q) (hc : s.calls[i]? = some (.append q' other)) :
    ¬ (s.stepCall i (.append q' other)).LostWakeup q := by
  rw [stepCall]
  split
  · exact h
  · exact not_lostWakeup_setCall h hc rfl (by simp) (by simp) .inl

theorem not_lostWakeup_wake (h : ¬ s.LostWakeup q) : ¬ (s.wake i).LostWakeup q := by
  unfold wake
  split
  · rename_i q' hc
    exact not_lostWakeup_setCall h hc rfl (by simp) (by simp) .inl
  · exact h

theorem not_lostWakeup_newCall (h : ¬ s.LostWakeup q) (hblocked : c ≠ .blocked q) :
    ¬ (s.newCall c).LostWakeup q := by
  refine not_lostWakeup_of h (fun hmem => ?_) .inl fun hmem => .inl (List.mem_append_left _ hmem)
  rcases List.mem_append.mp hmem with hmem | hmem
  · exact hmem
  · exact absurd (List.mem_singleton.mp hmem).symm hblocked

/-! ### Steps that may lose a wake-up -/

/-- A wait for nothing loses nothing. -/
theorem not_lostWakeup_wait_iff (h : ∀ q, ¬ s.LostWakeup q) (hc : s.calls[i]? = some (.empty q')) :
    (∀ q, ¬ (s.stepCall i (.empty q')).LostWakeup q) ↔
      (s.queues q').items = [] ∨ .inserted q' ∈ s.calls := by
  have hin : .inserted q' ∈ (s.stepCall i (.empty q')).calls ↔ .inserted q' ∈ s.calls := by
    rw [stepCall, calls_setCall, mem_set_iff hc (by simp)]
    simp
  have hwait : .blocked q' ∈ (s.stepCall i (.empty q')).calls :=
    (mem_set_iff hc (by simp)).mpr (.inl rfl)
  constructor
  · intro hnot
    by_contra! hlost
    exact hnot q' ⟨hwait, hlost.1, mt hin.mp hlost.2⟩
  · intro hsafe q
    by_cases hq : q = q'
    · rintro ⟨-, hne, hnone⟩
      rw [hq] at hne hnone
      exact hsafe.elim hne (mt hin.mpr hnone)
    · exact not_lostWakeup_setCall (h q) hc rfl (by simpa using Ne.symm hq) (by simp) .inl

theorem isLocked_of_call (hc : s.calls[i]? = some (.locked q other)) : s.isLocked q = true :=
  List.any_eq_true.mpr ⟨_, List.mem_of_getElem? hc, beq_self_eq_true q⟩

/-- New items where no call waits lose nothing. -/
theorem not_lostWakeup_appendFrom_iff (h : ∀ q, ¬ s.LostWakeup q)
    (hc : s.calls[i]? = some (.locked q' other)) :
    (∀ q, ¬ (s.appendFrom i q' other).LostWakeup q) ↔ (s.isLocked other = false →
      (s.queues other).items = [] ∨ .blocked q' ∉ s.calls ∨ .inserted q' ∈ s.calls) := by
  unfold appendFrom
  split
  · rename_i hlocked
    exact ⟨fun _ hfree => absurd hlocked (by simp [hfree]), fun _ => h⟩
  · rename_i hfree
    have hne : q' ≠ other := fun he => hfree (he ▸ isLocked_of_call hc)
    rw [Bool.not_eq_true] at hfree
    generalize hs' : ((s.setQueue q' ((s.queues q').rawPush (s.queues other).items)).setQueue other
      (s.queues other).takeAll).setCall i .done = s'
    have hcalls : s'.calls = s.calls.set i .done := by rw [← hs']; rfl
    have hitems : (s'.queues q').items = (s.queues q').items ++ (s.queues other).items := by
      rw [← hs', queues_setCall, queues_setQueue_of_ne _ hne, items_setQueue_self]
      rfl
    have hmem : ∀ c : Call α, c ≠ .locked q' other → c ≠ .done → (c ∈ s'.calls ↔ c ∈ s.calls) := by
      intro c hold hnew
      rw [hcalls, mem_set_iff hc hold, or_iff_right hnew]
    have hwait := hmem (.blocked q') (by simp) (by simp)
    have hin := hmem (.inserted q') (by simp) (by simp)
    constructor
    · intro hnot _
      by_contra! hlost
      refine hnot q' ⟨hwait.mpr hlost.2.1, ?_, mt hin.mp hlost.2.2⟩
      rw [hitems]
      exact List.append_ne_nil_of_right_ne_nil _ hlost.1
    · intro hsafe q
      by_cases hq : q = q'
      · rintro ⟨hblocked, hsome, hnone⟩
        rw [hq, hwait] at hblocked
        rw [hq, hin] at hnone
        rw [hq, hitems] at hsome
        rcases hsafe hfree with hnil | hno | hyes
        · rw [hnil, List.append_nil] at hsome
          exact h q' ⟨hblocked, hsome, hnone⟩
        · exact hno hblocked
        · exact hnone hyes
      · refine not_lostWakeup_setCall (h q) hc hcalls (by simp) (by simp) fun hsome => .inl ?_
        by_cases hother : q = other
        · rw [hother, ← hs', queues_setCall, items_setQueue_self] at hsome
          exact absurd rfl hsome
        · rwa [← hs', queues_setCall, queues_setQueue_of_ne _ hother,
            queues_setQueue_of_ne _ hq] at hsome

/-- The condition on a step is about a call that starts to wait, or has both locks. -/
theorem careful_step_iff (hc : s.calls[i]? = some c) : s.Careful (.step i) ↔
    (∀ q, c = .empty q → (s.queues q).items = [] ∨ .inserted q ∈ s.calls) ∧
      ∀ q other, c = .locked q other → s.isLocked other = false →
        (s.queues other).items = [] ∨ .blocked q ∉ s.calls ∨ .inserted q ∈ s.calls := by
  constructor
  · intro h
    refine ⟨fun q he => h.wait i q rfl (he ▸ hc),
      fun q other he => h.append i q other rfl (he ▸ hc)⟩
  · rintro ⟨hwait, happend⟩
    refine ⟨fun j q hlabel hj => ?_, fun j q other hlabel hj => ?_⟩
    · obtain rfl := Label.step.inj hlabel
      exact hwait q (Option.some.inj (hc.symm.trans hj))
    · obtain rfl := Label.step.inj hlabel
      exact happend q other (Option.some.inj (hc.symm.trans hj))

/-- A step of another kind is careful. -/
theorem careful_of_ne_step (h : ∀ i, label ≠ .step i) : s.Careful label :=
  ⟨fun i _ hlabel => absurd hlabel (h i), fun i _ _ hlabel => absurd hlabel (h i)⟩

/-- A step loses no wake-up exactly if it is careful. -/
theorem not_lostWakeup_step_iff (h : ∀ q, ¬ s.LostWakeup q) (label : Label α) :
    (∀ q, ¬ (s.step label).LostWakeup q) ↔ s.Careful label := by
  cases label with
  | push q item =>
    exact iff_of_true (fun q' => not_lostWakeup_newCall (h q') (by simp))
      (careful_of_ne_step (by simp))
  | appendFrom q other =>
    exact iff_of_true (fun q' => not_lostWakeup_newCall (h q') (by simp))
      (careful_of_ne_step (by simp))
  | waitPop q =>
    exact iff_of_true (fun q' => not_lostWakeup_newCall (h q') (by simp))
      (careful_of_ne_step (by simp))
  | wake i =>
    exact iff_of_true (fun q => not_lostWakeup_wake (h q)) (careful_of_ne_step (by simp))
  | step i =>
    cases hc : s.calls[i]? with
    | none =>
      rw [step, hc]
      refine iff_of_true h ⟨fun j q hlabel hj => ?_, fun j q other hlabel hj => ?_⟩
      · rw [← Label.step.inj hlabel, hc] at hj
        cases hj
      · rw [← Label.step.inj hlabel, hc] at hj
        cases hj
    | some c =>
      rw [careful_step_iff hc, step, hc, Option.elim_some]
      cases c with
      | empty q => simpa using not_lostWakeup_wait_iff h hc
      | locked q other => simpa [stepCall] using not_lostWakeup_appendFrom_iff h hc
      | push q item => exact iff_of_true (fun q' => not_lostWakeup_push (h q') hc) (by simp)
      | inserted q => exact iff_of_true (fun q' => not_lostWakeup_inserted (h q') hc) (by simp)
      | append q other => exact iff_of_true (fun q' => not_lostWakeup_append (h q') hc) (by simp)
      | waitPop q => exact iff_of_true (fun q' => not_lostWakeup_look (h q') hc (by simp)) (by simp)
      | woken q => exact iff_of_true (fun q' => not_lostWakeup_look (h q') hc (by simp)) (by simp)
      | blocked q => exact iff_of_true h (by simp)
      | popped q item => exact iff_of_true h (by simp)
      | done => exact iff_of_true h (by simp)

/-! ### What is returned -/

theorem filterMap_set {β : Type} {f : Call α → Option β} {l : List (Call α)} (hc : l[i]? = some c)
    (hold : f c = none) : ((l.set i c').filterMap f).Perm ((f c').toList ++ l.filterMap f) := by
  obtain ⟨l₁, l₂, rfl, -, hset⟩ := split_of_getElem? hc
  rw [hset, List.filterMap_append, List.filterMap_append, List.filterMap_cons_none hold]
  cases hnew : f c' with
  | none => rw [List.filterMap_cons_none hnew]; rfl
  | some b =>
    rw [List.filterMap_cons_some hnew]
    exact List.perm_middle

/-- A call goes on that returned nothing yet. -/
theorem Exact.setCall (h : s.Exact q) (hc : s.calls[i]? = some c) (hold : result q c = none)
    (hcalls : s'.calls = s.calls.set i c') (hfifo : (s'.queues q).Fifo)
    (hpopped : (s'.queues q).popped = (s.queues q).popped ++ (result q c').toList) :
    s'.Exact q where
  fifo := hfifo
  returned := by
    rw [hpopped, hcalls]
    exact (List.perm_append_comm.trans (h.returned.append_left _)).trans
      (filterMap_set hc hold).symm

theorem Exact.look (h : s.Exact q) (hc : s.calls[i]? = some c) (hold : result q c = none) :
    (s.look i q').Exact q := by
  unfold State.look
  split
  · exact h
  · split
    · rename_i item queue hpop
      by_cases hq : q = q'
      · obtain ⟨hfifo, hpopped⟩ := Queue.fifo_rawPop (hq ▸ h.fifo) hpop
        have hqueue : (s.setQueue q' queue).queues q = queue := by simp [hq, setQueue]
        refine h.setCall hc hold rfl ?_ ?_
        · rw [queues_setCall, hqueue]
          exact hfifo
        · rw [queues_setCall, hqueue, hpopped, hq, result, if_pos rfl]
          rfl
      · refine h.setCall hc hold rfl ?_ ?_
        · rw [queues_setCall, queues_setQueue_of_ne _ hq]
          exact h.fifo
        · rw [queues_setCall, queues_setQueue_of_ne _ hq, result, if_neg (Ne.symm hq)]
          simp
    · exact h.setCall hc hold rfl h.fifo (by simp [result])

theorem Exact.push (h : s.Exact q) (hc : s.calls[i]? = some (.push q' item)) :
    (s.stepCall i (.push q' item)).Exact q := by
  rw [stepCall]
  split
  · exact h
  · by_cases hq : q = q'
    · have hqueue : (s.setQueue q' ((s.queues q').rawPush [item])).queues q =
          (s.queues q).rawPush [item] := by simp [hq, setQueue]
      refine h.setCall hc rfl rfl ?_ ?_
      · rw [queues_setCall, hqueue]
        exact h.fifo.rawPush _
      · rw [queues_setCall, hqueue]
        simp [Queue.popped, Queue.rawPush, result]
    · refine h.setCall hc rfl rfl ?_ ?_
      · rw [queues_setCall, queues_setQueue_of_ne _ hq]
        exact h.fifo
      · rw [queues_setCall, queues_setQueue_of_ne _ hq]
        simp [result]

theorem Exact.inserted (h : s.Exact q) (hc : s.calls[i]? = some (.inserted q')) :
    (s.stepCall i (.inserted q')).Exact q := by
  have hheard : (s.broadcast q').Exact q := by
    refine ⟨h.fifo, ?_⟩
    rw [broadcast, List.filterMap_map]
    have hresult : result q ∘ Call.hear q' = result (α := α) q := by
      funext c
      cases c with
      | blocked q₀ =>
        rw [Function.comp_apply, Call.hear]
        split <;> rfl
      | _ => rfl
    rw [hresult]
    exact h.returned
  have hmap : (s.broadcast q').calls[i]? = some (.inserted q') := by
    rw [broadcast, List.getElem?_map, hc]
    rfl
  exact hheard.setCall hmap rfl rfl hheard.fifo (List.append_nil _).symm

theorem Exact.appendFrom (h : ∀ q, s.Exact q) (hc : s.calls[i]? = some (.locked q' other)) (q : ℕ) :
    (s.appendFrom i q' other).Exact q := by
  unfold State.appendFrom
  split
  · exact h q
  · suffices hqueue : ∀ queue, queue = ((s.setQueue q' ((s.queues q').rawPush
        (s.queues other).items)).setQueue other (s.queues other).takeAll).queues q →
        queue.Fifo ∧ queue.popped = (s.queues q).popped by
      obtain ⟨hfifo, hpopped⟩ := hqueue _ rfl
      exact (h q).setCall hc rfl rfl hfifo (hpopped.trans (List.append_nil _).symm)
    rintro queue rfl
    by_cases hother : q = other
    · have hself : ((s.setQueue q' ((s.queues q').rawPush (s.queues other).items)).setQueue other
          (s.queues other).takeAll).queues q = (s.queues q).takeAll := by simp [hother, setQueue]
      rw [hself]
      exact ⟨(h q).fifo.takeAll, Queue.popped_takeAll⟩
    · rw [queues_setQueue_of_ne _ hother]
      by_cases hq : q = q'
      · have hself : (s.setQueue q' ((s.queues q').rawPush (s.queues other).items)).queues q =
            (s.queues q).rawPush (s.queues other).items := by simp [hq, setQueue]
        rw [hself]
        exact ⟨(h q).fifo.rawPush _, rfl⟩
      · rw [queues_setQueue_of_ne _ hq]
        exact ⟨(h q).fifo, rfl⟩

theorem Exact.newCall (h : s.Exact q) (hc : result q c = none) : (s.newCall c).Exact q where
  fifo := h.fifo
  returned := by
    rw [calls_newCall, List.filterMap_append, List.filterMap_cons_none hc, List.filterMap_nil,
      List.append_nil]
    exact h.returned

theorem Exact.wake (h : s.Exact q) (i : ℕ) : (s.wake i).Exact q := by
  unfold State.wake
  split
  · rename_i q' hc
    exact h.setCall hc rfl rfl h.fifo (List.append_nil _).symm
  · exact h

/-- A step keeps the order of each queue, and what was returned from it. -/
theorem Exact.step (h : ∀ q, s.Exact q) (label : Label α) (q : ℕ) : (s.step label).Exact q := by
  cases label with
  | push q' item => exact (h q).newCall rfl
  | appendFrom q' other => exact (h q).newCall rfl
  | waitPop q' => exact (h q).newCall rfl
  | wake i => exact (h q).wake i
  | step i =>
    cases hc : s.calls[i]? with
    | none =>
      rw [State.step, hc]
      exact h q
    | some c =>
      rw [State.step, hc, Option.elim_some]
      cases c with
      | push q' item => exact (h q).push hc
      | inserted q' => exact (h q).inserted hc
      | append q' other =>
        rw [stepCall]
        split
        · exact h q
        · exact (h q).setCall hc rfl rfl (h q).fifo (List.append_nil _).symm
      | locked q' other => exact Exact.appendFrom h hc q
      | waitPop q' => exact (h q).look hc rfl
      | woken q' => exact (h q).look hc rfl
      | empty q' => exact (h q).setCall hc rfl rfl (h q).fifo (List.append_nil _).symm
      | blocked q' => exact h q
      | popped q' item => exact h q
      | done => exact h q

/-! ## Runs -/

/-- In all states of a run no wake-up is lost, items leave each queue in the order
they were inserted in, and each item that is popped is returned once, exactly if the
steps of the run are careful. -/
theorem waits_run_iff (labels : List (Label α)) :
    (∀ before after, labels = before ++ after → ∀ q,
      ¬ (run before).LostWakeup q ∧ (run before).Exact q) ↔
      ∀ before label after, labels = before ++ label :: after → (run before).Careful label := by
  refine forall_states_iff (P := fun s : State α => ∀ q, ¬ s.LostWakeup q ∧ s.Exact q) (fun q => ?_)
    (fun s label h => ?_) labels
  · exact ⟨fun h => absurd h.1 List.not_mem_nil, ⟨rfl, List.Perm.nil⟩⟩
  · rw [← not_lostWakeup_step_iff (fun q => (h q).1) label]
    exact ⟨fun hstep q => (hstep q).1,
      fun hstep q => ⟨hstep q, Exact.step (fun q => (h q).2) label q⟩⟩

/-- A reader finds nothing, a `push` inserts an item and broadcasts, and then the reader waits. -/
def lateWait : List (Label ℕ) :=
  [.waitPop 0, .step 0, .push 0 7, .step 1, .step 1, .step 0]

/-- A reader waits while an `append_from` brings an item. -/
def quietAppend : List (Label ℕ) :=
  [.waitPop 0, .step 0, .step 0, .push 1 7, .step 1, .step 1, .appendFrom 0 1, .step 2, .step 2]

/-- In both runs the reader waits with an item in the queue, and no call has anything left to do. -/
theorem lostWakeup_lateWait :
    ((run lateWait).LostWakeup 0 ∧ (run lateWait).calls = [.blocked 0, .done]) ∧
      (run quietAppend).LostWakeup 0 ∧ (run quietAppend).calls = [.blocked 0, .done, .done] := by
  unfold LostWakeup
  decide

end State

/-! ## The end of a wait -/

/-- `struct timeval`, as `gettimeofday` gives it. -/
structure TimeVal where
  sec : ℤ
  usec : ℕ
  usec_lt : usec < 1000000

/-- `struct timespec`. -/
structure TimeSpec where
  sec : ℤ
  nsec : ℤ
  deriving DecidableEq

/-- `pthread_cond_timedwait` takes it. -/
def TimeSpec.Valid (t : TimeSpec) : Prop :=
  0 ≤ t.nsec ∧ t.nsec < 1000000000

/-- The nanoseconds a time stands for. -/
def TimeSpec.nanos (t : TimeSpec) : ℤ :=
  t.sec * 1000000000 + t.nsec

/-- `ThreadTimeout`. -/
def threadTimeout (timeoutMs : ℤ) (now : TimeVal) : TimeSpec where
  sec := now.sec + timeoutMs.tdiv 1000
  nsec := (now.usec + timeoutMs.tmod 1000 * 1000) * 1000

/-- The time is valid, and it is as many milliseconds from now as asked for. -/
def TimeSpec.Meets (t : TimeSpec) (timeoutMs : ℤ) (now : TimeVal) : Prop :=
  t.Valid ∧ t.nanos = now.sec * 1000000000 + now.usec * 1000 + timeoutMs * 1000000

/-- The sum of both parts is right, whatever the timeout. -/
theorem nanos_threadTimeout (timeoutMs : ℤ) (now : TimeVal) : (threadTimeout timeoutMs now).nanos =
    now.sec * 1000000000 + now.usec * 1000 + timeoutMs * 1000000 := by
  have hsplit := Int.tmod_add_mul_tdiv timeoutMs 1000
  simp only [TimeSpec.nanos, threadTimeout]
  omega

/-- The end of a wait is met if and only if the parts below a second do not make one. -/
theorem meets_threadTimeout_iff (now : TimeVal) {timeoutMs : ℤ} (h : 0 ≤ timeoutMs) :
    (threadTimeout timeoutMs now).Meets timeoutMs now ↔
      now.usec + timeoutMs % 1000 * 1000 < 1000000 := by
  have hnonneg := Int.emod_nonneg timeoutMs (show (1000 : ℤ) ≠ 0 by decide)
  rw [TimeSpec.Meets, and_iff_left (nanos_threadTimeout timeoutMs now)]
  simp only [TimeSpec.Valid, threadTimeout, Int.tmod_eq_emod_of_nonneg h]
  omega

/-- A quarter of a second, from half a second on. -/
theorem meets_threadTimeout_quarter :
    (threadTimeout 250 ⟨0, 500000, by decide⟩).Meets 250 ⟨0, 500000, by decide⟩ :=
  (meets_threadTimeout_iff _ (by decide)).mpr (by decide)

/-- From the same time on, 600 milliseconds are 1100000000 nanoseconds and no second. -/
theorem not_meets_threadTimeout :
    ¬(threadTimeout 600 ⟨0, 500000, by decide⟩).Meets 600 ⟨0, 500000, by decide⟩ := by
  rintro ⟨⟨-, hlt⟩, -⟩
  revert hlt
  decide

end Barry.WaitPop
