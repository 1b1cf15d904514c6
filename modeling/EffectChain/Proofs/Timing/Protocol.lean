import EffectChain.Proofs.Timing.Stages
import Mathlib.Data.List.Induction

/-!
# Timers of one device

Any number of timers may be created on a device, and started, stopped and polled in any order, while
draws are issued, frames begin and interruptions are marked (`TimerSession`). Every timer has notes
of what it was asked and what it answered, and they tell what it will answer next
(`NotedTimer.Regular`): whether it can be started or stopped, what a poll finds, which commands it
has issued so far, and that every lap is collected by the first poll that is not too early
(`TimerSession.run_regular`).

The timers share the device: its clock, its frame, and the one mark of an interruption, which
whoever stops first takes. Their queries are their own (`TimerSession.Sound.apart`), so nothing that
is done to one of them disturbs another.
-/

namespace EffectChain

/-! ## Sessions -/

/-- A device with timers. -/
structure TimerSession where
  /-- The device. -/
  device : Device
  /-- The timers that were created on it. -/
  timers : List NotedTimer := []
  /-- What the host has counted. -/
  now : Moment := {}

/-- What can happen to a device with timers. -/
inductive TimerEvent
  | create
  | start (index : Nat)
  | stop (index : Nat)
  | poll (index : Nat)
  | collect (index : Nat) {window : Nat} (average : MovingAverage window)
  | draw (vertices : UInt32)
  | failAfter (kind : ObjectKind) (after : Nat)
  | markInterrupted
  | advanceFrame

namespace TimerSession

/-- The session after an event. What happens to a timer that there is not is nothing. -/
def step (s : TimerSession) : TimerEvent → TimerSession
  | .create =>
    match Timer.create s.device with
    | (.ok timer, d) => { s with device := d, timers := s.timers ++ [{ timer }] }
    | (.error _, d) => { s with device := d }
  | .start index =>
    match s.timers[index]? with
    | none => s
    | some x =>
      { s with
        device := s.device.issueAll x.timer.start.2.2
        timers := s.timers.set index (x.started s.now) }
  | .stop index =>
    match s.timers[index]? with
    | none => s
    | some x =>
      { device := s.device.issueAll x.timer.stop.2.2
        timers := s.timers.set index (x.stopped s.now)
        -- the interval that ends takes the mark
        now := { s.now with marked := s.now.marked && !x.timer.stop.1 } }
  | .poll index =>
    match s.timers[index]? with
    | none => s
    | some x => { s with timers := s.timers.set index (x.polled (x.timer.poll s.device).2 s.now) }
  | .collect index average =>
    match s.timers[index]? with
    | none => s
    | some x =>
      { s with
        timers := s.timers.set index (x.polled (x.timer.collect s.device average).1 s.now) }
  | .draw vertices =>
    { s with
      device := s.device.issue (.draw vertices)
      now := { s.now with draws := s.now.draws + 1 } }
  | .failAfter kind after => { s with device := s.device.failAfter kind after }
  | .markInterrupted =>
    { s with device := s.device.markInterrupted, now := { s.now with marked := true } }
  | .advanceFrame =>
    { s with
      device := s.device.advanceFrame
      now := { s.now with frame := s.now.frame + 1 } }

/-- The session after events on a new device. -/
def run (timing : DeviceTiming) (events : List TimerEvent) : TimerSession :=
  events.foldl step { device := { timing } }

end TimerSession

/-! ## What a timer answers -/

/-- The notes tell everything about the timer. -/
structure NotedTimer.Regular (s : TimerSession) (x : NotedTimer) : Prop where
  /-- It starts if there is neither an open lap nor one to collect. -/
  start : x.timer.start = if x.notes.Vacant then
      (true, { x.timer with state := .recording }, x.timer.cycle.take 2)
    else (false, x.timer, [])
  /-- It stops if there is an open lap. -/
  stop : x.timer.stop = if x.notes.opened?.isSome then
      (true, { x.timer with state := .inFlight }, x.timer.cycle.drop 2)
    else (false, x.timer, [])
  /-- What it issued are the commands of its laps. -/
  commands : s.device.log.filter (·.measures x.timer.queries) = x.script
  /-- The first poll that was not too early took the lap, and no other poll did. -/
  orderly : ∀ lap ∈ x.notes.laps,
    lap.Orderly s.device.timing ∧ lap.polls.countP (·.taken) ≤ 1
  /-- A poll answers what the lap that is due is worth. -/
  poll : x.timer.poll s.device
    = let due? := x.notes.due? s.device.timing s.now.frame
      (due?.bind (·.sample? s.device.timing),
        if due?.isSome then { x.timer with state := .idle } else x.timer)
  /-- That is added to an average, which else stays the same. -/
  collect : ∀ {window : Nat} (average : MovingAverage window),
    x.timer.collect s.device average
    = let duration? :=
        (x.notes.due? s.device.timing s.now.frame).bind (·.sample? s.device.timing)
      ((x.timer.poll s.device).2, duration?.elim average average.append)

theorem NotedTimer.Sound.regular {s : TimerSession} {x : NotedTimer}
    (h : x.Sound s.device s.now) (hat : s.device.IsAt s.now) (hnow : s.now.Fits s.device.timing) :
    x.Regular s where
  start := h.stage.start_eq
  stop := h.stage.stop_eq
  commands := h.commands
  orderly lap hlap := ⟨h.orderly lap hlap, (h.orderly lap hlap).countP_le_one⟩
  poll := h.stage.poll_eq hat.frame hnow
  collect average := by
    rw [Timer.collect_eq, h.stage.poll_eq hat.frame hnow]

/-! ## Sound sessions -/

namespace TimerSession

/-- The session keeps to the protocol. -/
structure Sound (s : TimerSession) : Prop where
  numbered : s.device.Numbered
  isAt : s.device.IsAt s.now
  /-- No command was issued on a query that there is not yet. -/
  unused : ∀ queries : List (Handle .query), (∀ q ∈ queries, s.device.lastId < q.id) →
    s.device.log.filter (·.measures queries) = []
  timers : ∀ {i : Nat} {x : NotedTimer}, s.timers[i]? = some x → x.Sound s.device s.now
  /-- No two timers share a query. -/
  apart : ∀ {i j : Nat} {x y : NotedTimer}, s.timers[i]? = some x → s.timers[j]? = some y → i ≠ j →
    ∀ q ∈ x.timer.queries, q ∉ y.timer.queries

variable {s s' : TimerSession} {index : Nat} {x x' : NotedTimer}

namespace Sound

theorem set (hs : s.Sound) (hx : s.timers[index]? = some x)
    (hconfined : s.device.Confined x.timer.queries s'.device)
    (hframe : s.now.frame ≤ s'.now.frame) (hat : s'.device.IsAt s'.now)
    (htimers : s'.timers = s.timers.set index x') (hqueries : x'.timer.queries = x.timer.queries)
    (hx' : x'.Sound s'.device s'.now) : s'.Sound := by
  have hset {j : Nat} {y : NotedTimer} (hy : s'.timers[j]? = some y) :
      (j = index ∧ y = x') ∨ (j ≠ index ∧ s.timers[j]? = some y) := by
    rw [htimers, List.getElem?_set] at hy
    by_cases hj : index = j
    · rw [if_pos hj] at hy
      split at hy <;> cases hy
      exact Or.inl ⟨hj.symm, rfl⟩
    · rw [if_neg hj] at hy
      exact Or.inr ⟨Ne.symm hj, hy⟩
  have hbefore {j : Nat} {y : NotedTimer} (hy : s'.timers[j]? = some y) :
      ∃ y₀, s.timers[j]? = some y₀ ∧ y.timer.queries = y₀.timer.queries := by
    rcases hset hy with ⟨rfl, rfl⟩ | ⟨-, hy⟩
    · exact ⟨x, hx, hqueries⟩
    · exact ⟨y, hy, rfl⟩
  -- the other timers are those of before, and the work was not on their queries
  refine ⟨hconfined.evolves.numbered hs.numbered, hat, fun queries hnew ↦ ?_, fun hy ↦ ?_,
    fun hy hz hne q hq ↦ ?_⟩
  · have hlater : ∀ q ∈ queries, s.device.lastId < q.id := fun q hq ↦
      hconfined.evolves.lastId_le.trans_lt (hnew q hq)
    rw [hconfined.log queries fun q hq hown ↦
      Nat.not_lt.mpr ((hs.timers hx).wired.id_le q hown) (hlater q hq)]
    exact hs.unused queries hlater
  · rcases hset hy with ⟨-, rfl⟩ | ⟨hne, hy⟩
    · exact hx'
    · exact (hs.timers hy).congr hconfined (hs.apart hy hx hne) hframe
  · obtain ⟨y₀, hy₀, hyq⟩ := hbefore hy
    obtain ⟨z₀, hz₀, hzq⟩ := hbefore hz
    rw [hyq] at hq
    rw [hzq]
    exact hs.apart hy₀ hz₀ hne q hq

theorem congr (hs : s.Sound) (hconfined : s.device.Confined [] s'.device)
    (hframe : s.now.frame ≤ s'.now.frame) (hat : s'.device.IsAt s'.now)
    (htimers : s'.timers = s.timers) : s'.Sound where
  numbered := hconfined.evolves.numbered hs.numbered
  isAt := hat
  unused queries hnew := by
    rw [hconfined.log queries fun _ _ ↦ List.not_mem_nil]
    exact hs.unused queries fun q hq ↦ hconfined.evolves.lastId_le.trans_lt (hnew q hq)
  timers hx := (hs.timers (htimers ▸ hx)).congr hconfined (fun _ _ ↦ List.not_mem_nil) hframe
  apart hx hy := hs.apart (htimers ▸ hx) (htimers ▸ hy)

theorem append (hs : s.Sound) (hx : x.Sound s.device s.now)
    (hnew : ∀ {i : Nat} {y : NotedTimer}, s.timers[i]? = some y →
      ∀ q ∈ x.timer.queries, q ∉ y.timer.queries) :
    Sound { s with timers := s.timers ++ [x] } := by
  have happend {j : Nat} {y : NotedTimer} (hy : (s.timers ++ [x])[j]? = some y) :
      s.timers[j]? = some y ∨ (j = s.timers.length ∧ y = x) := by
    rw [List.getElem?_append] at hy
    split at hy
    · exact Or.inl hy
    · rw [List.getElem?_singleton] at hy
      split at hy <;> cases hy
      exact Or.inr ⟨by omega, rfl⟩
  refine ⟨hs.numbered, hs.isAt, hs.unused, fun hy ↦ ?_, fun {i j y z} hy hz hne q hq ↦ ?_⟩
  · rcases happend hy with hy | ⟨-, rfl⟩
    · exact hs.timers hy
    · exact hx
  · rcases happend hy with hy₀ | ⟨rfl, rfl⟩ <;> rcases happend hz with hz₀ | ⟨rfl, rfl⟩
    · exact hs.apart hy₀ hz₀ hne q hq
    · exact fun hq' ↦ hnew hy₀ q hq' hq
    · exact hnew hz₀ q hq
    · exact absurd rfl hne

/-! ## Events -/

/-- Creating a timer does nothing to queries that there are, whether it succeeds or not. -/
theorem create (hs : s.Sound) : (s.step .create).Sound := by
  have hspared := (Timer.spares_create s.device s.device (Device.Spared.refl s.device)).1
  have hquiet := Timer.quiet_create s.device
  rw [step]
  rcases hrun : Timer.create s.device with ⟨e | t, d⟩ <;> rw [hrun] at hspared hquiet <;>
    obtain ⟨hevolves, hwaits, hlog⟩ := hquiet <;> dsimp only at hspared hlog ⊢
  all_goals
    have hconfined : s.device.Confined [] d :=
      ⟨hevolves, hwaits.timing, fun q hq _ ↦ hspared.get? hq, fun _ _ ↦ by rw [hlog]⟩
    have hat : d.IsAt s.now := by
      refine ⟨?_, hwaits.frame.trans hs.isAt.frame, ?_⟩
      · rw [hwaits.clock, hwaits.timing, hs.isAt.clock]
      · exact hwaits.interruptNext.trans hs.isAt.interruptNext
    have hs' : Sound { s with device := d } := hs.congr hconfined (Nat.le_refl _) hat rfl
  · exact hs'
  · obtain ⟨hwired, hidle⟩ := Timer.wired_of_create hrun
    obtain ⟨hnodup, hnew⟩ := Timer.new_of_create hrun
    refine hs'.append ⟨hwired, hnodup, fun q hq ↦ (hnew q hq).2, ?_, nofun, ?_⟩ ?_
    · dsimp only
      rw [hlog]
      exact hs.unused _ fun q hq ↦ (hnew q hq).1
    · exact .idle hidle ⟨rfl, nofun⟩
    · intro i y hy q hq hq'
      exact Nat.not_lt.mpr ((hs.timers hy).wired.id_le q hq') (hnew q hq).1

theorem start (hs : s.Sound) (hfits : s.now.Fits s.device.timing) (index : Nat) :
    (s.step (.start index)).Sound := by
  rw [step]
  rcases hx : s.timers[index]? with _ | x
  · exact hs
  · have hxs := hs.timers hx
    exact hs.set hx (x.timer.confined_cycle s.device x.timer.mem_cycle_of_start) (Nat.le_refl _)
      (hxs.isAt_start hs.isAt) rfl (x.timer.queries_start) (hxs.started hs.isAt hfits)

theorem stop (hs : s.Sound) (hfits : s.now.Fits s.device.timing) (index : Nat) :
    (s.step (.stop index)).Sound := by
  rw [step]
  rcases hx : s.timers[index]? with _ | x
  · exact hs
  · have hxs := hs.timers hx
    refine hs.set hx (x.timer.confined_cycle s.device x.timer.mem_cycle_of_stop) (Nat.le_refl _)
      (hxs.isAt_stop hs.isAt) rfl (x.timer.queries_stop) ?_
    exact (hxs.stopped hs.isAt hfits).congr (Device.Confined.refl [] _)
      (fun _ _ ↦ List.not_mem_nil) (Nat.le_refl _)

theorem poll (hs : s.Sound) (hfits : s.now.Fits s.device.timing) (index : Nat) :
    (s.step (.poll index)).Sound := by
  rw [step]
  rcases hx : s.timers[index]? with _ | x
  · exact hs
  · exact hs.set hx (Device.Confined.refl _ _) (Nat.le_refl _) hs.isAt rfl
      (x.timer.queries_poll s.device) ((hs.timers hx).polled hs.isAt.frame hfits)

theorem draw (hs : s.Sound) (vertices : UInt32) : (s.step (.draw vertices)).Sound := by
  refine hs.congr ⟨Device.Evolves.issue _ _, Device.timing_issue _ _,
    fun q _ _ ↦ Device.get?_issue_of_ne nofun, fun others _ ↦ ?_⟩ (Nat.le_refl _)
    ⟨?_, (Device.frame_issue _ _).trans hs.isAt.frame, hs.isAt.interruptNext⟩ rfl
  · change List.filter _ (s.device.issue (.draw vertices)).log = _
    rw [Device.log_issue, List.filter_append]
    exact List.append_nil _
  · change s.device.clock + s.device.timing.ticksPerDraw
      = UInt64.ofNat ((s.now.draws + 1) * s.device.timing.ticksPerDraw.toNat)
    rw [Nat.succ_mul, UInt64.ofNat_add, UInt64.ofNat_toNat, hs.isAt.clock, Moment.clock]

theorem control (hs : s.Sound) {d : Device} {now : Moment}
    (htiming : d.timing = s.device.timing) (hlastId : d.lastId = s.device.lastId)
    (hobjects : d.objects = s.device.objects) (hrecorded : d.recorded = s.device.recorded)
    (hframe : s.now.frame ≤ now.frame) (hat : d.IsAt now) :
    Sound { s with device := d, now } := by
  refine hs.congr ⟨Device.Evolves.of_eq hobjects hlastId, htiming, fun q _ _ ↦ ?_, fun _ _ ↦ ?_⟩
    hframe hat rfl
  · rw [Device.get?, Device.get?, hobjects]
  · rw [Device.log, Device.log, hrecorded]

/-- **Every event keeps to the protocol.** -/
theorem step (hs : s.Sound) (hfits : s.now.Fits s.device.timing) (event : TimerEvent) :
    (s.step event).Sound := by
  cases event with
  | create => exact hs.create
  | start index => exact hs.start hfits index
  | stop index => exact hs.stop hfits index
  | poll index => exact hs.poll hfits index
  | collect index average =>
    have hsame : s.step (.collect index average) = s.step (.poll index) := by
      rw [TimerSession.step, TimerSession.step]
      simp only [Timer.collect_eq]
    rw [hsame]
    exact hs.poll hfits index
  | draw vertices => exact hs.draw vertices
  | failAfter kind after =>
    exact hs.control rfl rfl rfl rfl (Nat.le_refl _)
      ⟨hs.isAt.clock, hs.isAt.frame, hs.isAt.interruptNext⟩
  | markInterrupted =>
    exact hs.control rfl rfl rfl rfl (Nat.le_refl _) ⟨hs.isAt.clock, hs.isAt.frame, rfl⟩
  | advanceFrame =>
    refine hs.control rfl rfl rfl rfl (Nat.le_succ _)
      ⟨hs.isAt.clock, ?_, hs.isAt.interruptNext⟩
    change s.device.frame + 1 = UInt64.ofNat (s.now.frame + 1)
    rw [UInt64.ofNat_add, hs.isAt.frame]
    rfl

end Sound

/-! ## Runs -/

theorem timing_step (s : TimerSession) (event : TimerEvent) :
    (s.step event).device.timing = s.device.timing := by
  cases event with
  | create =>
    have hquiet := Timer.quiet_create s.device
    rw [step]
    split <;> rename_i hrun <;> rw [hrun] at hquiet <;> exact hquiet.waits.timing
  | start | stop =>
    rw [step]
    split
    · rfl
    · exact Device.timing_issueAll _ _
  | poll | collect =>
    rw [step]
    split <;> rfl
  | draw vertices => exact Device.timing_issue _ _
  | _ => rfl

theorem now_le_step (s : TimerSession) (event : TimerEvent) :
    s.now.draws ≤ (s.step event).now.draws ∧ s.now.frame ≤ (s.step event).now.frame := by
  cases event with
  | draw => exact ⟨Nat.le_succ _, Nat.le_refl _⟩
  | advanceFrame => exact ⟨Nat.le_refl _, Nat.le_succ _⟩
  | create | start | stop | poll | collect =>
    rw [step]
    split <;> exact ⟨Nat.le_refl _, Nat.le_refl _⟩
  | _ => exact ⟨Nat.le_refl _, Nat.le_refl _⟩

theorem run_concat (timing : DeviceTiming) (events : List TimerEvent) (event : TimerEvent) :
    run timing (events ++ [event]) = (run timing events).step event := by
  rw [run, List.foldl_append]
  rfl

theorem timing_run (timing : DeviceTiming) (events : List TimerEvent) :
    (run timing events).device.timing = timing := by
  induction events using List.reverseRecOn with
  | nil => rfl
  | append_singleton events event ih =>
    rw [run_concat, timing_step]
    exact ih

theorem sound_run (timing : DeviceTiming) {events : List TimerEvent}
    (hfits : (run timing events).now.Fits timing) : (run timing events).Sound := by
  induction events using List.reverseRecOn with
  | nil =>
    refine ⟨nofun, ⟨?_, rfl, rfl⟩, fun _ _ ↦ rfl, nofun, nofun⟩
    exact congrArg UInt64.ofNat (Nat.zero_mul _).symm
  | append_singleton events event ih =>
    rw [run_concat] at hfits ⊢
    obtain ⟨hdraws, hframe⟩ := (run timing events).now_le_step event
    have hbefore := hfits.mono hdraws hframe
    refine (ih hbefore).step ?_ event
    rw [timing_run]
    exact hbefore

/-- **The protocol of timers.** Whatever is done with any number of timers on a device, each of them
answers as its notes tell, as long as the clock does not overflow. No poll does anything to the
device. -/
theorem run_regular (timing : DeviceTiming) (events : List TimerEvent)
    (hfits : (run timing events).now.Fits timing) :
    let s := run timing events
    (∀ x ∈ s.timers, x.Regular s) ∧
      ∀ index, (s.step (.poll index)).device = s.device ∧
        ∀ {window : Nat} (average : MovingAverage window),
          (s.step (.collect index average)).device = s.device := by
  intro s
  have hs : s.Sound := sound_run timing hfits
  refine ⟨fun x hx ↦ ?_, fun index ↦ ⟨?_, fun average ↦ ?_⟩⟩
  · obtain ⟨i, hi⟩ := List.getElem?_of_mem hx
    refine (hs.timers hi).regular hs.isAt ?_
    rw [timing_run]
    exact hfits
  all_goals
    rw [step]
    split <;> rfl

/-- Of two timers that overlap the one that is stopped first takes the mark of an interruption. -/
theorem run_regular_overlapping :
    let events : List TimerEvent := [.create, .create, .markInterrupted, .start 0, .draw 3,
      .start 1, .draw 3, .stop 0, .poll 0, .draw 3, .stop 1, .start 1, .advanceFrame]
    let s := run {} events
    s.now.Fits {} ∧ (∀ x ∈ s.timers, x.Regular s) ∧
      s.timers.map (fun x ↦ (x.timer.poll s.device).1) = [none, some 200000] :=
  ⟨by decide +kernel, (run_regular {} _ (by decide +kernel)).1, by decide +kernel⟩

end TimerSession

end EffectChain
