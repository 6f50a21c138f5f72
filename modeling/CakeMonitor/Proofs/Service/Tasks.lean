import CakeMonitor.Proofs.Command.Processes
import CakeMonitor.Proofs.Service.Moves
import CakeMonitor.Tasks

/-!
# One loop at a time

Starts and stops control one loop. A start makes a task only when none is alive, so at most the task of the
last start is. A poll takes effect at its end or not at all: a stop that comes before leaves the poller as it
was when the poll began, and kills the process that the poll waits for.

* `Tasks.Step`: all that an event can do; `Tasks.step_of_handle?` is the one look at the events.
* `Tasks.exists_stop`: a stop can come at any time.
* `Tasks.Sound`: at most the current task is alive, and the service runs while it is.
* `Tasks.poller_step`: only the end of a poll changes the poller.
* `Tasks.leaveNone_log`: no local process is left behind.
* `Tasks.one_loop`: what holds in the course of all events.
* `Tasks.exists_run_start`: the polls that a service makes after a start are those of a task.
-/

namespace CakeMonitor

/-- A poll that was stopped leaves the poller as it was. -/
theorem Poller.take_of_stopped {p : Poller} {now : Timestamp}
    {collected : Except Failure (List Snapshot)} (h : (p.take now collected).2 = .stopped) :
    (p.take now collected).1 = p := by
  unfold take at h ⊢
  split at h
  · rfl
  · cases h
  · split at h
    · cases h
    · split at h <;> cases h

/-- A poll whose collection is stopped is stopped. -/
theorem Service.poll_of_stopped {s : Service} {site : Site}
    (h : (s.collector.collect s.clock).run s.site = .error .stopped site) :
    s.poll = ({ s with site }, .stopped) := by
  unfold poll collected
  rw [h]
  rfl

namespace Tasks

variable {w w' : Tasks} {e : Event} {j k : Nat}

/-! ## What an event does -/

/-- The tasks after a stop of the task of that number. -/
def cancelled (w : Tasks) (k : Nat) (service : Service) : Tasks :=
  { w.turnTo k .ended with service := service.stop, current := none }

/-- **All that an event can do.** -/
inductive Step (w : Tasks) : Event → Tasks → Prop
  | keep (running : w.isRunning = true) : Step w .start w
  | make (idle : w.isRunning = false) :
      Step w .start { service := w.service.start 0, activities := w.activities ++ [.ready]
                      current := some w.activities.length }
  | nothing {runs : List Run} {lookups : List Lookup} (none : w.current = none) :
      Step w (.stop runs lookups) w
  | cancel {k : Nat} {runs : List Run} {lookups : List Lookup} (current : w.current = some k)
      (waits : w.activity k ≠ .polling) : Step w (.stop runs lookups) (w.cancelled k w.service)
  | cutOff {k : Nat} {runs : List Run} {lookups : List Lookup} {service : Service}
      (current : w.current = some k) (polling : w.activity k = .polling)
      (poll : (w.service.facing runs lookups).poll = (service, .stopped)) :
      Step w (.stop runs lookups) (w.cancelled k service)
  | clock (t : Timestamp) : Step w (.clock t) { w with service.clock := t }
  | beginPoll {k : Nat} (waits : w.activity k = .ready ∨ w.activity k = .asleep) :
      Step w (.beginPoll k) (w.turnTo k .polling)
  | endPoll {k : Nat} {runs : List Run} {lookups : List Lookup} {service : Service} {result : PollResult}
      (polling : w.activity k = .polling)
      (poll : (w.service.facing runs lookups).poll = (service, result))
      (goesOn : result = .completed ∨ result = .skipped) :
      Step w (.endPoll k runs lookups) ({ w with service }.turnTo k .asleep)
  | fail {k : Nat} {runs : List Run} {lookups : List Lookup} {service : Service} {error : NumberError}
      (polling : w.activity k = .polling)
      (poll : (w.service.facing runs lookups).poll = (service, .broken error)) :
      Step w (.endPoll k runs lookups)
        ({ w with service := { service with loop := .broken } }.turnTo k .ended)

theorem isAlive_of_activity {a : Activity} (h : w.activity k = a) (ha : a ≠ .ended) :
    w.isAlive k = true := by
  unfold isAlive
  rw [h]
  exact decide_eq_true ha

theorem isAlive_of_waits (h : w.activity k = .ready ∨ w.activity k = .asleep) : w.isAlive k = true := by
  obtain hactivity | hactivity := h
  · exact isAlive_of_activity hactivity nofun
  · exact isAlive_of_activity hactivity nofun

theorem step_of_stop? {runs : List Run} {lookups : List Lookup} (h : w.stop? runs lookups = some w') :
    Step w (.stop runs lookups) w' := by
  unfold stop? at h
  cases hcurrent : w.current with
  | none =>
    rw [hcurrent] at h
    obtain rfl := Option.some.inj h
    exact .nothing hcurrent
  | some k =>
    simp only [hcurrent] at h
    cases hactivity : w.activity k with
    | polling =>
      simp only [hactivity] at h
      rcases hpoll : (w.service.facing runs lookups).poll with ⟨service, result⟩
      rw [hpoll] at h
      cases result with
      | stopped =>
        obtain rfl := Option.some.inj h
        exact .cutOff hcurrent hactivity hpoll
      | completed | skipped | broken _ => cases h
    | ready | asleep | ended =>
      simp only [hactivity] at h
      obtain rfl := Option.some.inj h
      exact .cancel hcurrent (by rw [hactivity]; nofun)

theorem step_of_begin? (h : w.begin? k = some w') : Step w (.beginPoll k) w' := by
  unfold begin? at h
  cases hactivity : w.activity k with
  | ready =>
    rw [hactivity] at h
    obtain rfl := Option.some.inj h
    exact .beginPoll (.inl hactivity)
  | asleep =>
    rw [hactivity] at h
    obtain rfl := Option.some.inj h
    exact .beginPoll (.inr hactivity)
  | polling | ended =>
    rw [hactivity] at h
    cases h

theorem step_of_finish? {runs : List Run} {lookups : List Lookup}
    (h : w.finish? k runs lookups = some w') : Step w (.endPoll k runs lookups) w' := by
  unfold finish? at h
  cases hactivity : w.activity k with
  | polling =>
    simp only [hactivity] at h
    rcases hpoll : (w.service.facing runs lookups).poll with ⟨service, result⟩
    rw [hpoll] at h
    cases result with
    | completed =>
      obtain rfl := Option.some.inj h
      exact .endPoll hactivity hpoll (.inl rfl)
    | skipped =>
      obtain rfl := Option.some.inj h
      exact .endPoll hactivity hpoll (.inr rfl)
    | broken error =>
      obtain rfl := Option.some.inj h
      exact .fail hactivity hpoll
    | stopped => cases h
  | ready | asleep | ended =>
    rw [hactivity] at h
    cases h

theorem step_of_handle? (h : w.handle? e = some w') : Step w e w' := by
  cases e with
  | start =>
    obtain rfl := Option.some.inj h
    unfold start
    split
    · exact .keep ‹_›
    · exact .make (Bool.not_eq_true _ ▸ ‹_›)
  | stop runs lookups => exact step_of_stop? h
  | clock t =>
    obtain rfl := Option.some.inj h
    exact .clock t
  | beginPoll k => exact step_of_begin? h
  | endPoll k runs lookups => exact step_of_finish? h

theorem handle?_of_step (h : Step w e w') : w.handle? e = some w' := by
  cases h with
  | keep running => exact congrArg some (if_pos running)
  | make idle => exact congrArg some (if_neg (Bool.eq_false_iff.mp idle))
  | nothing none =>
    show w.stop? _ _ = _
    unfold stop?
    rw [none]
  | @cancel k _ _ current waits =>
    show w.stop? _ _ = _
    unfold stop?
    simp only [current]
    split
    · exact absurd ‹_› waits
    · rfl
    · rfl
    · rfl
  | cutOff current polling poll =>
    show w.stop? _ _ = _
    unfold stop?
    simp only [current, polling, poll]
    rfl
  | clock t => rfl
  | beginPoll waits =>
    show w.begin? _ = _
    unfold begin?
    obtain hactivity | hactivity := waits
    · rw [hactivity]
    · rw [hactivity]
  | endPoll polling poll goesOn =>
    show w.finish? _ _ _ = _
    unfold finish?
    obtain rfl | rfl := goesOn
    · simp only [polling, poll]
    · simp only [polling, poll]
  | fail polling poll =>
    show w.finish? _ _ _ = _
    unfold finish?
    simp only [polling, poll]

theorem run?_cons (w : Tasks) (e : Event) (es : List Event) :
    w.run? (e :: es) = (w.handle? e).bind (·.run? es) := List.foldlM_cons

/-- **What every event preserves, several do.** -/
theorem run?_preserves {I : Tasks → Prop} {events : List Event}
    (hstep : ∀ e ∈ events, ∀ w w', I w → Step w e w' → I w') (hw : I w)
    (h : w.run? events = some w') : I w' := by
  induction events generalizing w with
  | nil =>
    obtain rfl := Option.some.inj h
    exact hw
  | cons e es ih =>
    rw [run?_cons] at h
    obtain ⟨w₁, hw₁, hrest⟩ := Option.bind_eq_some_iff.mp h
    obtain ⟨hfirst, hothers⟩ := List.forall_mem_cons.mp hstep
    exact ih hothers (hfirst w w₁ hw (step_of_handle? hw₁)) hrest

/-- **A stop can come at any time**, also while a program runs. -/
theorem exists_stop (w : Tasks) : ∃ runs lookups w', w.handle? (.stop runs lookups) = some w' := by
  cases hcurrent : w.current with
  | none => exact ⟨[], [], w, handle?_of_step (.nothing hcurrent)⟩
  | some k =>
    by_cases hactivity : w.activity k = .polling
    · obtain ⟨site, hcollect⟩ := w.service.collector.collect_cutOff w.service.clock w.service.site
      have hpoll := Service.poll_of_stopped
        (s := w.service.facing [{ fate := .interrupted }] [.found 0]) hcollect
      exact ⟨_, _, _, handle?_of_step (.cutOff hcurrent hactivity hpoll)⟩
    · exact ⟨[], [], _, handle?_of_step (.cancel hcurrent hactivity)⟩

/-! ## At most one task -/

/-- **At most the current task is alive**, and the service runs while it is. -/
structure Sound (w : Tasks) : Prop where
  alone : ∀ k, w.isAlive k = true → w.current = some k
  running : w.service.isRunning = w.isRunning
  halted : w.current = none → w.service.loop = .stopped

theorem lt_of_isAlive (h : w.isAlive k = true) : k < w.activities.length := by
  by_contra hge
  unfold isAlive activity at h
  rw [List.getElem?_eq_none (Nat.le_of_not_lt hge)] at h
  cases h

theorem isAlive_turnTo (hk : w.isAlive k = true) (service : Service) (a : Activity) (j : Nat) :
    ({ w with service }.turnTo k a).isAlive j = if k = j then decide (a ≠ .ended) else w.isAlive j := by
  have hlt := lt_of_isAlive hk
  unfold isAlive activity turnTo
  rw [List.getElem?_set]
  split_ifs with hj
  · rfl
  · rfl

/-- A task that is over is not alive; others do not begin to be. -/
theorem of_isAlive_turnTo {service : Service} (h : ({ w with service }.turnTo k .ended).isAlive j = true) :
    j ≠ k ∧ w.isAlive j = true := by
  unfold isAlive activity turnTo at h
  rw [List.getElem?_set] at h
  split_ifs at h with hj hlt
  · cases h
  · cases h
  · exact ⟨Ne.symm hj, h⟩

theorem isAlive_append (w : Tasks) (j : Nat) (service : Service) (current : Option Nat) :
    Tasks.isAlive { service, activities := w.activities ++ [.ready], current } j
      = if w.activities.length = j then true else w.isAlive j := by
  unfold isAlive activity
  split_ifs with hj
  · subst hj
    rw [List.getElem?_concat_length]
    rfl
  · by_cases hlt : j < w.activities.length
    · rw [List.getElem?_append_left hlt]
    · have hbehind : (w.activities ++ [Activity.ready]).length ≤ j := by
        rw [List.length_append, List.length_singleton]
        omega
      rw [List.getElem?_eq_none hbehind, List.getElem?_eq_none (Nat.le_of_not_lt hlt)]

theorem isRunning_of_isAlive (hs : w.Sound) (hk : w.isAlive k = true) : w.isRunning = true := by
  unfold isRunning
  rw [hs.alone k hk]
  exact hk

theorem exists_isAlive (h : w.isRunning = true) : ∃ k, w.isAlive k = true := by
  unfold isRunning at h
  cases hcurrent : w.current with
  | none =>
    rw [hcurrent] at h
    cases h
  | some k =>
    rw [hcurrent] at h
    exact ⟨k, h⟩

/-- A task that goes on stays the only one. -/
theorem sound_turnTo (hs : w.Sound) (hk : w.isAlive k = true) {a : Activity} (ha : a ≠ .ended)
    {service : Service} (hloop : service.loop = w.service.loop) :
    ({ w with service }.turnTo k a).Sound := by
  have hcurrent := hs.alone k hk
  have hturn (j : Nat) : ({ w with service }.turnTo k a).isAlive j = w.isAlive j := by
    rw [isAlive_turnTo hk]
    split_ifs with hj
    · rw [← hj, hk]
      exact decide_eq_true ha
    · rfl
  refine ⟨fun j hj => hs.alone j ((hturn j).symm.trans hj), ?_, fun hnone => ?_⟩
  · have hrunning : service.isRunning = w.service.isRunning := by
      unfold Service.isRunning
      rw [hloop]
    refine hrunning.trans (hs.running.trans ?_)
    unfold isRunning
    exact congrArg (Option.any · w.current) (funext fun j => (hturn j).symm)
  · exact hloop.trans (hs.halted hnone)

/-- When the current task is over, none is alive. -/
theorem not_isAlive_turnTo (hs : w.Sound) (hcurrent : w.current = some k) (service : Service) (j : Nat) :
    ({ w with service }.turnTo k .ended).isAlive j = false := by
  refine Bool.eq_false_iff.mpr fun halive => ?_
  obtain ⟨hne, hj⟩ := of_isAlive_turnTo halive
  exact hne (Option.some.inj ((hs.alone j hj).symm.trans hcurrent))

theorem sound_cancelled (hs : w.Sound) (hcurrent : w.current = some k) (service : Service) :
    (w.cancelled k service).Sound := by
  refine ⟨fun j hj => ?_, rfl, fun _ => rfl⟩
  have hnone : (w.cancelled k service).isAlive j = false := not_isAlive_turnTo hs hcurrent service.stop j
  rw [hnone] at hj
  cases hj

theorem loop_of_poll {s service : Service} {runs : List Run} {lookups : List Lookup} {result : PollResult}
    (h : (s.facing runs lookups).poll = (service, result)) : service.loop = s.loop :=
  (congrArg (fun polled => polled.1.loop) h).symm

/-- **Every event keeps it so.** -/
theorem sound_step (hs : w.Sound) (h : Step w e w') : w'.Sound := by
  cases h with
  | keep _ => exact hs
  | make idle =>
    refine ⟨fun j hj => ?_, ?_, nofun⟩
    · rw [isAlive_append] at hj
      split_ifs at hj with hlast
      · rw [hlast]
      · rw [isRunning_of_isAlive hs hj] at idle
        cases idle
    · rw [Service.isRunning_start]
      refine Eq.symm ?_
      show Tasks.isAlive { w with service := _, activities := _, current := _ } w.activities.length = true
      rw [isAlive_append, if_pos rfl]
  | nothing _ => exact hs
  | cancel current _ => exact sound_cancelled hs current w.service
  | cutOff current _ _ => exact sound_cancelled hs current _
  | clock t => exact ⟨hs.alone, hs.running, hs.halted⟩
  | beginPoll waits => exact sound_turnTo (a := .polling) hs (isAlive_of_waits waits) nofun rfl
  | endPoll polling poll _ =>
    exact sound_turnTo (a := .asleep) hs (isAlive_of_activity polling nofun) nofun (loop_of_poll poll)
  | fail polling _ =>
    have halive := isAlive_of_activity polling nofun
    have hcurrent := hs.alone _ halive
    refine ⟨fun j hj => ?_, ?_, fun hnone => ?_⟩
    · rw [not_isAlive_turnTo hs hcurrent] at hj
      cases hj
    · refine Eq.symm (Bool.eq_false_iff.mpr fun hrunning => ?_)
      obtain ⟨j, hj⟩ := exists_isAlive hrunning
      rw [not_isAlive_turnTo hs hcurrent] at hj
      cases hj
    · rw [show w.current = none from hnone] at hcurrent
      cases hcurrent

theorem sound_run? {events : List Event} (hs : w.Sound) (h : w.run? events = some w') : w'.Sound :=
  run?_preserves (fun _ _ _ _ hsound hstep => sound_step hsound hstep) hs h

theorem sound_new {s : Service} (h : s.loop = .stopped) : ({ service := s } : Tasks).Sound where
  alone := nofun
  running := by
    show s.isRunning = false
    unfold Service.isRunning
    rw [h]
    rfl
  halted _ := h

/-! ## The poller -/

/-- Whether an event is the end of a poll. -/
def Event.endsPoll : Event → Bool
  | .endPoll _ _ _ => true
  | _ => false

/-- **Only the end of a poll changes the poller**; a stop that comes before does not. -/
theorem poller_step (h : Step w e w') (he : e.endsPoll = false) : w'.service.poller = w.service.poller := by
  cases h with
  | keep _ => rfl
  | make _ => exact (Service.start_keeps w.service).2
  | nothing _ => rfl
  | cancel _ _ => rfl
  | @cutOff k runs lookups service _ _ poll =>
    have hpoller : service.poller = ((w.service.facing runs lookups).poller.take w.service.clock
        ((w.service.facing runs lookups).collected w.service.clock).1).1 :=
      (congrArg (fun polled => polled.1.poller) poll).symm
    have hstopped : ((w.service.facing runs lookups).poller.take w.service.clock
        ((w.service.facing runs lookups).collected w.service.clock).1).2 = .stopped :=
      congrArg Prod.snd poll
    exact hpoller.trans (Poller.take_of_stopped hstopped)
  | clock t => rfl
  | beginPoll _ => rfl
  | endPoll _ _ _ => cases he
  | fail _ _ => cases he

theorem poller_run? {events : List Event} (h : w.run? events = some w')
    (hevents : ∀ e ∈ events, e.endsPoll = false) : w'.service.poller = w.service.poller :=
  run?_preserves (I := fun w' => w'.service.poller = w.service.poller)
    (fun e he _ _ hkept hstep => (poller_step hstep (hevents e he)).trans hkept) rfl h

theorem current_of_stop {runs : List Run} {lookups : List Lookup} (h : Step w (.stop runs lookups) w') :
    w'.current = none := by
  cases h with
  | nothing none => exact none
  | cancel _ _ => rfl
  | cutOff _ _ _ => rfl

/-- Without a task that is alive, nothing but a start brings anything about. -/
theorem quiet_step (hs : w.Sound) (hnone : w.current = none) (h : Step w e w') (he : e ≠ .start) :
    w'.current = none ∧ w'.service.poller = w.service.poller := by
  have hdead (k : Nat) : ¬ w.isAlive k = true := fun hk => by
    rw [hs.alone k hk] at hnone
    cases hnone
  have hpolls : e.endsPoll = false := by
    cases h with
    | endPoll polling _ _ => exact absurd (isAlive_of_activity polling nofun) (hdead _)
    | fail polling _ => exact absurd (isAlive_of_activity polling nofun) (hdead _)
    | _ => rfl
  refine ⟨?_, poller_step h hpolls⟩
  cases h with
  | keep _ => exact absurd rfl he
  | make _ => exact absurd rfl he
  | nothing none => exact none
  | cancel _ _ => rfl
  | cutOff _ _ _ => rfl
  | clock t => exact hnone
  | beginPoll waits => exact absurd (isAlive_of_waits waits) (hdead _)
  | endPoll _ _ _ => exact hnone
  | fail _ _ => exact hnone

theorem quiet_run? {events : List Event} (hs : w.Sound) (hnone : w.current = none)
    (hevents : .start ∉ events) (h : w.run? events = some w') :
    w'.service.poller = w.service.poller := by
  have hquiet := run?_preserves
    (I := fun w' => w'.Sound ∧ w'.current = none ∧ w'.service.poller = w.service.poller) ?_
    ⟨hs, hnone, rfl⟩ h
  · exact hquiet.2.2
  · rintro e he w₁ w₂ ⟨hs₁, hnone₁, hkept⟩ hstep
    have hne : e ≠ .start := fun heq => hevents (heq ▸ he)
    obtain ⟨hnone₂, hpoller⟩ := quiet_step hs₁ hnone₁ hstep hne
    exact ⟨sound_step hs₁ hstep, hnone₂, hpoller.trans hkept⟩

/-! ## Local processes -/

/-- The calls that an event makes, with their answers. Those of a poll come with its end. -/
def exchanges (w : Tasks) (e : Event) : List Exchange :=
  let polled (runs : List Run) (lookups : List Lookup) : List Exchange :=
    (w.service.facing runs lookups).site.exchanges (w.service.collector.collect w.service.clock)
  match e with
  | .endPoll _ runs lookups => polled runs lookups
  | .stop runs lookups => if w.current.any (w.activity · = .polling) then polled runs lookups else []
  | .start | .clock _ | .beginPoll _ => []

/-- The calls of some events, with their answers. -/
def log (w : Tasks) : List Event → List Exchange
  | [] => []
  | e :: es => w.exchanges e ++ ((w.handle? e).map (·.log es)).getD []

theorem leaveNone_exchanges (w : Tasks) (e : Event) : LeaveNone (w.exchanges e) := by
  cases e with
  | endPoll _ runs lookups => exact Collector.leaveNone_collect _ _ _
  | stop runs lookups =>
    unfold exchanges
    split_ifs
    · exact Collector.leaveNone_collect _ _ _
    · exact leaveNone_nil
  | start | clock _ | beginPoll _ => exact leaveNone_nil

/-- **No event leaves a local process behind**, nor do several. -/
theorem leaveNone_log (w : Tasks) (events : List Event) : LeaveNone (w.log events) := by
  induction events generalizing w with
  | nil => exact leaveNone_nil
  | cons e es ih =>
    refine (w.leaveNone_exchanges e).append ?_
    cases w.handle? e with
    | none => exact leaveNone_nil
    | some w₁ => exact ih w₁

/-! ## One loop -/

/-- **One loop**: at most one task is alive and the loop runs while one is. After a start one is, and a start
that finds it alive changes nothing. -/
structure OneLoop (w : Tasks) : Prop where
  alone : ∀ j k, w.isAlive j = true → w.isAlive k = true → j = k
  running : w.isRunning = true ↔ ∃ k, w.isAlive k = true
  shown : w.service.isRunning = w.isRunning
  begins : w.start.isRunning = true
  again : w.isRunning = true → w.handle? .start = some w

theorem oneLoop_of_sound (hs : w.Sound) : w.OneLoop where
  alone j k hj hk := Option.some.inj ((hs.alone j hj).symm.trans (hs.alone k hk))
  running := ⟨exists_isAlive, fun ⟨_, hk⟩ => isRunning_of_isAlive hs hk⟩
  shown := hs.running
  begins := by
    have hstart : w.handle? .start = some w.start := rfl
    rw [← (sound_step hs (step_of_handle? hstart)).running]
    unfold start
    split
    · rwa [hs.running]
    · exact Service.isRunning_start w.service
  again h := congrArg some (if_pos h)

/-- **Starts and stops control one loop.** After any events there is one loop at most. A stop ends it, and the
poller stays as it is then until the next start. A stop before the end of a poll leaves the poller as it was
when the poll began, and no local process. -/
theorem one_loop {s : Service} (hs : s.loop = .stopped) {events : List Event}
    (h : ({ service := s } : Tasks).run? events = some w) :
    w.OneLoop ∧
    (∀ runs lookups w₁, w.handle? (.stop runs lookups) = some w₁ → w₁.isRunning = false ∧
      ∀ later w₂, .start ∉ later → w₁.run? later = some w₂ →
        w₂.service.poller = w₁.service.poller) ∧
    ∀ k w₁ meanwhile w₂ runs lookups w₃, w.handle? (.beginPoll k) = some w₁ →
      (∀ e ∈ meanwhile, e.endsPoll = false) → w₁.run? meanwhile = some w₂ →
      w₂.handle? (.stop runs lookups) = some w₃ →
      w₃.service.poller = w.service.poller ∧
      processes (({ service := s } : Tasks).log
        (events ++ .beginPoll k :: meanwhile ++ [.stop runs lookups])) = 0 := by
  have hsound := sound_run? (sound_new hs) h
  refine ⟨oneLoop_of_sound hsound, fun runs lookups w₁ hstop => ?_, ?_⟩
  · have hstep := step_of_handle? hstop
    have hnone := current_of_stop hstep
    refine ⟨?_, fun later w₂ hlater hrun => quiet_run? (sound_step hsound hstep) hnone hlater hrun⟩
    unfold isRunning
    rw [hnone]
    rfl
  · intro k w₁ meanwhile w₂ runs lookups w₃ hbegin hmeanwhile hrun hstop
    refine ⟨?_, leaveNone_log _ _ 0⟩
    calc w₃.service.poller
        = w₂.service.poller := poller_step (step_of_handle? hstop) rfl
      _ = w₁.service.poller := poller_run? hrun hmeanwhile
      _ = w.service.poller := poller_step (step_of_handle? hbegin) rfl

/-- A start, and a poll that finds no queue. -/
def polledOnce : List Event := [.start, .beginPoll 0, .endPoll 0 [{}] [], .clock 1000]

/-- What they lead to. -/
def asleepOnce : Tasks where
  service := { Service.idle with
    poller.lastSuccess := some 0
    site.world := { runs := [{}], calls := [.spawn ["tc", "-s", "qdisc"]] }
    clock := 1000
    loop := .asleep }
  activities := [.asleep]
  current := some 0

theorem one_loop_cut_off :
    let running : Run := { fate := .interrupted }
    Service.idle.loop = .stopped ∧
    ({ service := Service.idle } : Tasks).run? polledOnce = some asleepOnce ∧
    asleepOnce.isRunning = true ∧ ∃ w₁ w₂,
      asleepOnce.handle? (.beginPoll 0) = some w₁ ∧ w₁.handle? (.stop [running] []) = some w₂ ∧
      w₂.service.poller = asleepOnce.service.poller ∧
      ({ service := Service.idle } : Tasks).log (polledOnce ++ [.beginPoll 0] ++ [.stop [running] []])
        = [.spawn ["tc", "-s", "qdisc"] {}, .spawn ["tc", "-s", "qdisc"] running, .kill] := by
  have hrun : ({ service := Service.idle } : Tasks).run? polledOnce = some asleepOnce := by
    decide +kernel
  obtain ⟨-, -, hcutOff⟩ := one_loop rfl hrun
  have hbegin : asleepOnce.handle? (.beginPoll 0) = some (asleepOnce.turnTo 0 .polling) := rfl
  have hstopped : ((asleepOnce.turnTo 0 .polling).service.facing [{ fate := .interrupted }] []).poll.2
      = .stopped := by
    decide +kernel
  rcases hpoll : ((asleepOnce.turnTo 0 .polling).service.facing [{ fate := .interrupted }] []).poll
    with ⟨service, result⟩
  rw [hpoll] at hstopped
  obtain rfl : result = .stopped := hstopped
  have hstop := handle?_of_step (.cutOff (w := asleepOnce.turnTo 0 .polling) rfl rfl hpoll)
  obtain ⟨hpoller, -⟩ := hcutOff 0 _ [] _ _ _ _ hbegin nofun rfl hstop
  refine ⟨rfl, hrun, rfl, _, _, hbegin, hstop, hpoller, ?_⟩
  decide +kernel

/-! ## The polls of a service -/

/-- The task of that number is the current one and is about to poll. -/
structure Waits (w : Tasks) (k : Nat) : Prop where
  current : w.current = some k
  activity : w.activity k = .ready ∨ w.activity k = .asleep
  loop : w.service.loop = .asleep

theorem activity_turnTo (hk : w.isAlive k = true) (service : Service) (a : Activity) :
    ({ w with service }.turnTo k a).activity k = a := by
  have hlt := lt_of_isAlive hk
  unfold activity turnTo
  rw [List.getElem?_set_self hlt]
  rfl

theorem run?_step {es : List Event} (h : Step w e w') : w.run? (e :: es) = w'.run? es := by
  rw [run?_cons, handle?_of_step h]
  rfl

/-- A poll that is over lets the task sleep. -/
theorem exists_run_goesOn (h : w.Waits k) {service : Service} {result : PollResult}
    (hpoll : w.service.poll = (service, result)) (hresult : result = .completed ∨ result = .skipped) :
    ∃ events w', w.run? events = some w' ∧
      w'.service = { service with clock := service.clock + service.sleep } ∧ w'.Waits k := by
  have hbegin : Step w (.beginPoll k) (w.turnTo k .polling) := .beginPoll h.activity
  have hpolling := activity_turnTo (isAlive_of_waits h.activity) w.service .polling
  have halive := isAlive_of_activity hpolling nofun
  -- the poll comes to its end in the state that its task began it in
  let runs := w.service.site.world.runs
  let lookups := w.service.site.world.lookups
  have hown : ((w.turnTo k .polling).service.facing runs lookups).poll = (service, result) := hpoll
  have hend := Step.endPoll hpolling hown hresult
  refine ⟨[.beginPoll k, .endPoll k runs lookups, .clock (service.clock + service.sleep)],
    { ({ w.turnTo k .polling with service }.turnTo k .asleep) with
      service.clock := service.clock + service.sleep }, ?_, rfl, ?_⟩
  · rw [run?_step hbegin, run?_step hend]
    rfl
  · exact ⟨h.current, .inr (activity_turnTo halive service .asleep),
      (loop_of_poll hown).trans h.loop⟩

/-- **A cycle of the service is a poll of a task**, and its sleep if the loop goes on. -/
theorem exists_run_cycle_one (h : w.Waits k) :
    ∃ events w', w.run? events = some w' ∧ w'.service = Service.cycle 1 w.service ∧
      (w'.service.isRunning = true → w'.Waits k) := by
  have hbegin : Step w (.beginPoll k) (w.turnTo k .polling) := .beginPoll h.activity
  have hpolling := activity_turnTo (isAlive_of_waits h.activity) w.service .polling
  -- the poll comes to its end in the state that its task began it in
  let runs := w.service.site.world.runs
  let lookups := w.service.site.world.lookups
  rcases hpoll : w.service.poll with ⟨service, result⟩
  have hown : ((w.turnTo k .polling).service.facing runs lookups).poll = (service, result) := hpoll
  have hloop : service.loop = .asleep := (loop_of_poll hown).trans h.loop
  unfold Service.cycle
  rw [hpoll]
  cases result with
  | completed =>
    obtain ⟨events, w', hrun, hservice, hwaits⟩ := exists_run_goesOn h hpoll (.inl rfl)
    refine ⟨events, w', hrun, hservice.trans ?_, fun _ => hwaits⟩
    unfold Service.cycle
    rw [← hloop]
  | skipped =>
    obtain ⟨events, w', hrun, hservice, hwaits⟩ := exists_run_goesOn h hpoll (.inr rfl)
    refine ⟨events, w', hrun, hservice.trans ?_, fun _ => hwaits⟩
    unfold Service.cycle
    rw [← hloop]
  | broken error =>
    have hend := Step.fail hpolling hown
    refine ⟨[.beginPoll k, .endPoll k runs lookups],
      { w.turnTo k .polling with service := { service with loop := .broken } }.turnTo k .ended, ?_, rfl, ?_⟩
    · rw [run?_step hbegin, run?_step hend]
      rfl
    · exact fun hrunning => Bool.noConfusion hrunning
  | stopped =>
    have hend : Step (w.turnTo k .polling) (.stop runs lookups) ((w.turnTo k .polling).cancelled k service) :=
      .cutOff h.current hpolling hown
    refine ⟨[.beginPoll k, .stop runs lookups], (w.turnTo k .polling).cancelled k service, ?_, rfl, ?_⟩
    · rw [run?_step hbegin, run?_step hend]
      rfl
    · exact fun hrunning => Bool.noConfusion hrunning

theorem run?_append (w : Tasks) (es fs : List Event) :
    w.run? (es ++ fs) = (w.run? es).bind (·.run? fs) := List.foldlM_append

/-- So are several. -/
theorem exists_run_cycle (n : Nat) (h : w.Waits k) :
    ∃ events w', w.run? events = some w' ∧ w'.service = Service.cycle n w.service := by
  induction n generalizing w with
  | zero =>
    refine ⟨[], w, rfl, ?_⟩
    unfold Service.cycle
    rw [← h.loop]
  | succ n ih =>
    obtain ⟨events, w₁, hrun, hservice, hwaits⟩ := exists_run_cycle_one h
    rw [Service.cycle_succ, ← hservice]
    unfold Service.resume
    split
    · rename_i hrunning
      obtain ⟨more, w₂, hmore, hservice₂⟩ := ih (hwaits hrunning)
      refine ⟨events ++ more, w₂, ?_, hservice₂⟩
      rw [run?_append, hrun]
      exact hmore
    · exact ⟨events, w₁, hrun, rfl⟩

/-- **The polls that a service makes after a start are those of a task.** -/
theorem exists_run_start {s : Service} (hs : s.loop = .stopped) (n : Nat) :
    ∃ events w, ({ service := s } : Tasks).run? (.start :: events) = some w ∧
      w.service = s.start n := by
  have hidle : s.isRunning = false := by
    unfold Service.isRunning
    rw [hs]
    rfl
  have hstart (m : Nat) : s.start m = Service.cycle m s := if_neg (Bool.eq_false_iff.mp hidle)
  have hwaits : ({ service := s.start 0, activities := [.ready], current := some 0 } : Tasks).Waits 0 := by
    refine ⟨rfl, .inl rfl, ?_⟩
    show (s.start 0).loop = _
    rw [hstart]
    rfl
  obtain ⟨events, w, hrun, hservice⟩ := exists_run_cycle n hwaits
  refine ⟨events, w, hrun, hservice.trans ?_⟩
  show Service.cycle n (s.start 0) = _
  rw [hstart, hstart]
  exact Service.cycle_loop n s .asleep

end Tasks

end CakeMonitor
