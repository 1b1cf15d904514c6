import EffectChain.Proofs.Timing.Results

/-!
# Stages of a timer

A timer is idle with nothing to collect, or it has an open lap and the first reading of it, or it
has a lap to collect and all three results of it (`NotedTimer.Stage`). Its notes tell which
(`NotedTimer.Stage.vacant_iff`, `NotedTimer.Stage.opened_iff`), so what it answers next is known
from them.

A query keeps an old result until it is ended again, so the results of the last lap are still there
when the next one is opened. A poll does not take them for those of the new lap, because it only
looks once all three were replaced. With the commands that were issued and with what is known of
earlier laps the stage makes an invariant (`NotedTimer.Sound`). A start, a stop and a poll keep it
(`NotedTimer.Sound.started`, `NotedTimer.Sound.stopped`, `NotedTimer.Sound.polled`), and so does
whatever is done to other queries (`NotedTimer.Sound.congr`).
-/

namespace EffectChain

/-! ## Moments on a device -/

namespace Moment

def clock (timing : DeviceTiming) (now : Moment) : UInt64 :=
  UInt64.ofNat (now.draws * timing.ticksPerDraw.toNat)

/-- The frame from which on a query that is ended at the moment can be read. -/
def ready (timing : DeviceTiming) (now : Moment) : UInt64 :=
  UInt64.ofNat (now.frame + timing.latency.toNat)

/-- The clock does not overflow by the moment, nor do frames that are waited for. -/
structure Fits (timing : DeviceTiming) (now : Moment) : Prop where
  clock : now.draws * timing.ticksPerDraw.toNat < UInt64.size
  ready : now.frame + timing.latency.toNat < UInt64.size

instance (timing : DeviceTiming) (now : Moment) : Decidable (now.Fits timing) :=
  decidable_of_iff (now.draws * timing.ticksPerDraw.toNat < UInt64.size ∧
    now.frame + timing.latency.toNat < UInt64.size) ⟨fun h ↦ ⟨h.1, h.2⟩, fun h ↦ ⟨h.1, h.2⟩⟩

variable {timing : DeviceTiming} {now now' : Moment}

theorem Fits.mono (h : now'.Fits timing) (hdraws : now.draws ≤ now'.draws)
    (hframe : now.frame ≤ now'.frame) : now.Fits timing where
  clock := (Nat.mul_le_mul_right _ hdraws).trans_lt h.clock
  ready := (Nat.add_le_add_right hframe _).trans_lt h.ready

theorem ready_le_ready (h : now.Fits timing) (h' : now'.Fits timing)
    (hframe : now.frame ≤ now'.frame) : now.ready timing ≤ now'.ready timing :=
  (UInt64.ofNat_le_iff_le h.ready h'.ready).mpr (Nat.add_le_add_right hframe _)

end Moment

theorem Lap.sample?_eq {timing : DeviceTiming} {lap : Lap} (hopening : lap.opening.Fits timing)
    (hclosing : lap.closing.Fits timing) :
    lap.sample? timing = if lap.closing.marked ∨ timing.frequency = 0 then none
      else some (Timer.nanoseconds (lap.opening.clock timing) (lap.closing.clock timing)
        timing.frequency) := by
  rw [Timer.nanoseconds, Moment.clock, Moment.clock, UInt64.toNat_ofNat_of_lt' hopening.clock,
    UInt64.toNat_ofNat_of_lt' hclosing.clock, ← Nat.sub_mul]
  rfl

/-- The device is at the moment. -/
structure Device.IsAt (d : Device) (now : Moment) : Prop where
  clock : d.clock = now.clock d.timing
  frame : d.frame = UInt64.ofNat now.frame
  interruptNext : d.interruptNext = now.marked

theorem Device.IsAt.ready {d : Device} {now : Moment} (h : d.IsAt now) :
    d.frame + d.timing.latency = now.ready d.timing := by
  rw [Moment.ready, UInt64.ofNat_add, UInt64.ofNat_toNat, h.frame]

theorem Device.IsAt.cycle {d : Device} {now : Moment} (h : d.IsAt now) {t : Timer}
    {cs : List Command} (hcs : ∀ c ∈ cs, c ∈ t.cycle) {marked : Bool}
    (hmark : (d.issueAll cs).interruptNext = marked) :
    (d.issueAll cs).IsAt { now with marked } where
  clock := by
    rw [Timer.clock_cycle d hcs, Device.timing_issueAll]
    exact h.clock
  frame := (Device.frame_issueAll d cs).trans h.frame
  interruptNext := hmark

/-! ## Stages of a timer -/

namespace Timer

variable {d : Device} {t : Timer} {lap : Lap} {now : Moment}

/-- The timer took a reading at the moment. -/
structure Opened (d : Device) (t : Timer) (opening : Moment) : Prop where
  fits : opening.Fits d.timing
  reading : d.HasResult t.opening (opening.ready d.timing) (.timestamp (opening.clock d.timing))

/-- The queries have the results of the lap. -/
structure Closed (d : Device) (t : Timer) (lap : Lap) : Prop where
  opened : t.Opened d lap.opening
  fits : lap.closing.Fits d.timing
  frame_le : lap.opening.frame ≤ lap.closing.frame
  reading : d.HasResult t.closing (lap.closing.ready d.timing)
    (.timestamp (lap.closing.clock d.timing))
  mark : d.HasResult t.interval (lap.closing.ready d.timing)
    (.disjoint d.timing.frequency lap.closing.marked)

theorem Closed.poll (h : t.Closed d lap) (hstate : t.state = .inFlight)
    (hframe : d.frame = UInt64.ofNat now.frame) (hnow : now.Fits d.timing) :
    t.poll d = if lap.due d.timing ≤ now.frame then
      (lap.sample? d.timing, { t with state := .idle }) else (none, t) := by
  have hready := Moment.ready_le_ready h.opened.fits h.fits h.frame_le
  have hfits : now.frame < UInt64.size := (Nat.le_add_right _ _).trans_lt hnow.ready
  have hdue : lap.closing.ready d.timing ≤ d.frame ↔ lap.due d.timing ≤ now.frame := by
    rw [hframe]
    exact UInt64.ofNat_le_iff_le h.fits.ready hfits
  rw [poll_of_hasResult hstate h.opened.reading hready h.reading h.mark,
    Lap.sample?_eq h.opened.fits h.fits]
  simp only [hdue]

theorem collect_eq {window : Nat} (t : Timer) (d : Device) (average : MovingAverage window) :
    t.collect d average = ((t.poll d).2, (t.poll d).1.elim average average.append) := by
  rw [collect]
  rcases t.poll d with ⟨_ | duration, after⟩ <;> rfl

end Timer

namespace NotedTimer

/-- What a timer is doing, and what it has to show for it. -/
inductive Stage (d : Device) (now : Moment) (x : NotedTimer) : Prop
  /-- There is neither an open lap nor one to collect. -/
  | idle (hstate : x.timer.state = .idle) (hvacant : x.notes.Vacant)
  /-- There is an open lap. -/
  | recording {opening : Moment} (hstate : x.timer.state = .recording)
    (hopened : x.notes.opened? = some opening)
    (hcollected : ∀ lap ∈ x.notes.laps, lap.Collected)
    (hframe : opening.frame ≤ now.frame) (hopening : x.timer.Opened d opening)
  /-- There is a lap to collect, and no other. -/
  | inFlight {lap : Lap} {laps : List Lap} (hstate : x.timer.state = .inFlight)
    (hopened : x.notes.opened? = none) (hlaps : x.notes.laps = lap :: laps)
    (hlap : ¬lap.Collected) (hcollected : ∀ lap ∈ laps, lap.Collected)
    (hclosed : x.timer.Closed d lap)

/-- A timer that keeps to the protocol. -/
structure Sound (d : Device) (now : Moment) (x : NotedTimer) : Prop where
  wired : x.timer.Wired d
  nodup : x.timer.queries.Nodup
  live : ∀ q ∈ x.timer.queries, q.ref ∈ d.live
  commands : d.log.filter (·.measures x.timer.queries) = x.script
  orderly : ∀ lap ∈ x.notes.laps, lap.Orderly d.timing
  stage : x.Stage d now

variable {d d' : Device} {now now' : Moment} {x : NotedTimer}

theorem Stage.vacant_iff (h : x.Stage d now) : x.notes.Vacant ↔ x.timer.state = .idle := by
  rw [TimerNotes.Vacant]
  rcases h with ⟨hstate, hvacant⟩ | ⟨hstate, hopened, -, -, -⟩ | ⟨hstate, -, hlaps, hlap, -, -⟩ <;>
    rw [hstate]
  · exact iff_of_true hvacant rfl
  · exact iff_of_false (fun h ↦ by simp [hopened] at h) nofun
  · refine iff_of_false (fun h ↦ hlap (h.2 _ ?_)) nofun
    rw [hlaps]
    exact List.mem_cons_self

theorem Stage.opened_iff (h : x.Stage d now) :
    x.notes.opened?.isSome = true ↔ x.timer.state = .recording := by
  rcases h with ⟨hstate, hvacant⟩ | ⟨hstate, hopened, -, -, -⟩ | ⟨hstate, hopened, -, -, -, -⟩ <;>
    rw [hstate]
  · rw [hvacant.1]
    exact iff_of_false nofun nofun
  · rw [hopened]
    exact iff_of_true rfl rfl
  · rw [hopened]
    exact iff_of_false nofun nofun

theorem Stage.of_opened (h : x.Stage d now) (hsome : x.notes.opened?.isSome) :
    ∃ opening, x.notes.opened? = some opening ∧ (∀ lap ∈ x.notes.laps, lap.Collected) ∧
      opening.frame ≤ now.frame ∧ x.timer.Opened d opening := by
  rcases h with ⟨-, hvacant⟩ | ⟨-, hopened, hcollected, hframe, hopening⟩ | ⟨-, hopened, -, -, -, -⟩
  · rw [hvacant.1] at hsome
    cases hsome
  · exact ⟨_, hopened, hcollected, hframe, hopening⟩
  · rw [hopened] at hsome
    cases hsome

theorem Stage.collected_tail (h : x.Stage d now) : ∀ lap ∈ x.notes.laps.tail, lap.Collected := by
  rcases h with ⟨-, hvacant⟩ | ⟨-, -, hcollected, -, -⟩ | ⟨-, -, hlaps, -, hcollected, -⟩
  · exact fun lap hlap ↦ hvacant.2 lap (List.mem_of_mem_tail hlap)
  · exact fun lap hlap ↦ hcollected lap (List.mem_of_mem_tail hlap)
  · rw [hlaps]
    exact hcollected

theorem Stage.start_eq (h : x.Stage d now) : x.timer.start = if x.notes.Vacant then
    (true, { x.timer with state := .recording }, x.timer.cycle.take 2)
      else (false, x.timer, []) := by
  simp only [h.vacant_iff]
  rfl

theorem Stage.stop_eq (h : x.Stage d now) : x.timer.stop = if x.notes.opened?.isSome then
    (true, { x.timer with state := .inFlight }, x.timer.cycle.drop 2)
      else (false, x.timer, []) := by
  simp only [h.opened_iff]
  rfl

/-- **A poll takes the lap that is due.** -/
theorem Stage.poll_eq (h : x.Stage d now) (hframe : d.frame = UInt64.ofNat now.frame)
    (hnow : now.Fits d.timing) :
    x.timer.poll d
      = ((x.notes.due? d.timing now.frame).bind (·.sample? d.timing),
        if (x.notes.due? d.timing now.frame).isSome then { x.timer with state := .idle }
        else x.timer) := by
  rcases h with ⟨hstate, hvacant⟩ | ⟨hstate, -, hcollected, -, -⟩ |
    ⟨hstate, -, hlaps, hlap, hcollected, hclosed⟩
  · rw [TimerNotes.due?_eq_none hvacant.2]
    exact Timer.poll_of_ne (by rw [hstate]; exact nofun) _
  · rw [TimerNotes.due?_eq_none hcollected]
    exact Timer.poll_of_ne (by rw [hstate]; exact nofun) _
  · rw [hclosed.poll hstate hframe hnow, TimerNotes.due?_of_cons hlaps hlap hcollected]
    split <;> rfl

end NotedTimer

/-! ## What others do -/

/-- What was done to queries was done to these. -/
structure Device.Confined (queries : List (Handle .query)) (d d' : Device) : Prop where
  evolves : d.Evolves d'
  timing : d'.timing = d.timing
  get? : ∀ q : Handle .query, q.id ≤ d.lastId → q ∉ queries → d'.get? q = d.get? q
  log : ∀ others : List (Handle .query), (∀ q ∈ others, q ∉ queries) →
    d'.log.filter (·.measures others) = d.log.filter (·.measures others)

protected theorem Device.Confined.refl (queries : List (Handle .query)) (d : Device) :
    d.Confined queries d :=
  ⟨Device.Evolves.refl d, rfl, fun _ _ _ ↦ rfl, fun _ _ ↦ rfl⟩

theorem Timer.confined_cycle (t : Timer) (d : Device) {cs : List Command}
    (hcs : ∀ c ∈ cs, c ∈ t.cycle) : d.Confined t.queries (d.issueAll cs) where
  evolves := Device.Evolves.issueAll d cs
  timing := Device.timing_issueAll d cs
  get? _ _ hq := Device.get?_issueAll_of_ne fun c hc ↦ touched?_cycle d hq c (hcs c hc)
  log others hothers := by
    rw [Device.log_issueAll, List.filter_append, List.append_right_eq_self,
      List.filter_eq_nil_iff]
    intro c hc
    rw [Command.not_measures (t.measures_cycle c (hcs c hc)) hothers]
    exact nofun

namespace NotedTimer

variable {d d' : Device} {now now' : Moment} {x : NotedTimer}

/-- What is done to other queries changes nothing for a timer, nor does the time. -/
theorem Sound.congr (h : x.Sound d now) {queries : List (Handle .query)}
    (hconfined : d.Confined queries d') (hothers : ∀ q ∈ x.timer.queries, q ∉ queries)
    (hframe : now.frame ≤ now'.frame) : x.Sound d' now' := by
  have hget : ∀ q ∈ x.timer.queries, d'.get? q = d.get? q := fun q hq ↦
    hconfined.get? q (h.wired.id_le q hq) (hothers q hq)
  have hopened {opening : Moment} (ho : x.timer.Opened d opening) : x.timer.Opened d' opening := by
    obtain ⟨hfits, hreading⟩ := ho
    rw [← hconfined.timing] at hfits hreading
    exact ⟨hfits, hreading.congr (hget _ (by simp [Timer.queries]))⟩
  have hclosed {lap : Lap} (hc : x.timer.Closed d lap) : x.timer.Closed d' lap := by
    obtain ⟨ho, hfits, hle, hreading, hmark⟩ := hc
    rw [← hconfined.timing] at hfits hreading hmark
    exact ⟨hopened ho, hfits, hle, hreading.congr (hget _ (by simp [Timer.queries])),
      hmark.congr (hget _ (by simp [Timer.queries]))⟩
  refine ⟨h.wired.evolves hconfined.evolves, h.nodup, fun q hq ↦ ?_, ?_, ?_, ?_⟩
  · obtain ⟨c, hc⟩ := Device.get?_of_mem_live (h.live q hq)
    exact Device.mem_live_of_get? ((hget q hq).trans hc)
  · rw [hconfined.log _ hothers]
    exact h.commands
  · rw [hconfined.timing]
    exact h.orderly
  · cases h.stage with
    | idle hstate hvacant => exact .idle hstate hvacant
    | recording hstate ho hcollected hle hreading =>
      exact .recording hstate ho hcollected (hle.trans hframe) (hopened hreading)
    | inFlight hstate ho hlaps hlap hcollected hresults =>
      exact .inFlight hstate ho hlaps hlap hcollected (hclosed hresults)

/-! ## What a timer does itself -/

theorem Sound.next (h : x.Sound d now) {cs : List Command} (hcs : ∀ c ∈ cs, c ∈ x.timer.cycle)
    {x' : NotedTimer} (hqueries : x'.timer.queries = x.timer.queries)
    (hscript : x'.script = x.script ++ cs)
    (horderly : ∀ lap ∈ x'.notes.laps, lap.Orderly d.timing)
    (hstage : x'.Stage (d.issueAll cs) now) : x'.Sound (d.issueAll cs) now where
  wired := by
    have hwired := h.wired.evolves (Device.Evolves.issueAll d cs)
    simp only [Timer.queries, List.cons.injEq] at hqueries
    obtain ⟨hinterval, hopening, hclosing, -⟩ := hqueries
    exact ⟨hinterval ▸ hwired.interval, hopening ▸ hwired.opening, hclosing ▸ hwired.closing⟩
  nodup := hqueries ▸ h.nodup
  live := by
    rw [hqueries, Device.live_issueAll]
    exact h.live
  commands := by
    have hown : cs.filter (·.measures x.timer.queries) = cs :=
      List.filter_eq_self.mpr fun c hc ↦ x.timer.measures_cycle c (hcs c hc)
    rw [hqueries, Device.log_issueAll, List.filter_append, h.commands, hown, hscript]
  orderly := by
    rw [Device.timing_issueAll]
    exact horderly
  stage := hstage

theorem Sound.refused (h : x.Sound d now) {note : TimerNote}
    (hopened : TimerNotes.opened? (note :: x.notes) = x.notes.opened?)
    (hlaps : TimerNotes.laps (note :: x.notes) = x.notes.laps) :
    Sound d now ⟨x.timer, note :: x.notes⟩ := by
  refine h.next (List.forall_mem_nil _) rfl ?_ ?_ ?_
  · simp only [script, hopened, hlaps, List.append_nil]
  · dsimp only
    rw [hlaps]
    exact h.orderly
  · cases h.stage with
    | idle hstate hvacant =>
      refine .idle hstate ?_
      rwa [TimerNotes.Vacant, hopened, hlaps]
    | recording hstate ho hcollected hle hreading =>
      exact .recording hstate (hopened.trans ho) (by rwa [hlaps]) hle hreading
    | inFlight hstate ho hl hlap hcollected hclosed =>
      exact .inFlight hstate (hopened.trans ho) (hlaps.trans hl) hlap hcollected hclosed

theorem Sound.started (h : x.Sound d now) (hat : d.IsAt now) (hnow : now.Fits d.timing) :
    (x.started now).Sound (d.issueAll x.timer.start.2.2) now := by
  rw [NotedTimer.started, h.stage.start_eq]
  by_cases hvacant : x.notes.Vacant
  · rw [if_pos hvacant]
    obtain ⟨hopened, hcollected⟩ := hvacant
    obtain ⟨hreading, -⟩ := Timer.issue_start h.wired h.live
    rw [hat.ready, hat.clock] at hreading
    refine h.next (fun c hc ↦ List.mem_of_mem_take hc) rfl (script_started hopened _) h.orderly ?_
    refine .recording rfl rfl hcollected (Nat.le_refl _) ⟨?_, ?_⟩ <;> rw [Device.timing_issueAll]
    · exact hnow
    · exact hreading
  · rw [if_neg hvacant]
    exact h.refused rfl rfl

theorem Sound.stopped (h : x.Sound d now) (hat : d.IsAt now) (hnow : now.Fits d.timing) :
    (x.stopped now).Sound (d.issueAll x.timer.stop.2.2) now := by
  rw [NotedTimer.stopped, h.stage.stop_eq]
  by_cases hrecording : x.notes.opened?.isSome
  · rw [if_pos hrecording]
    obtain ⟨opening, hopened, hcollected, hle, hfits, hstart⟩ := h.stage.of_opened hrecording
    obtain ⟨hreading, hmark, -, hsame⟩ := Timer.issue_stop h.wired h.live h.nodup
    rw [hat.ready] at hreading hmark
    rw [hat.clock] at hreading
    rw [hat.interruptNext] at hmark
    have hlaps : TimerNotes.laps (.stopped true now :: x.notes)
        = { opening, closing := now } :: x.notes.laps := TimerNotes.laps_stopped hopened
    refine h.next (fun c hc ↦ List.mem_of_mem_drop hc) rfl (script_stopped hopened _) ?_ ?_
    · rw [hlaps]
      exact List.forall_mem_cons.mpr ⟨Lap.orderly_nil _ _, h.orderly⟩
    · have htiming := Device.timing_issueAll d (x.timer.cycle.drop 2)
      refine .inFlight rfl rfl hlaps nofun hcollected ⟨⟨?_, ?_⟩, ?_, hle, ?_, ?_⟩ <;> rw [htiming]
      · exact hfits
      · exact hstart.congr hsame
      · exact hnow
      · exact hreading
      · exact hmark
  · rw [if_neg hrecording]
    exact h.refused rfl rfl

theorem Sound.isAt_start (h : x.Sound d now) (hat : d.IsAt now) :
    (d.issueAll x.timer.start.2.2).IsAt now := by
  refine hat.cycle x.timer.mem_cycle_of_start ?_
  rw [h.stage.start_eq]
  split
  · exact (Timer.issue_start h.wired h.live).2.trans hat.interruptNext
  · exact hat.interruptNext

theorem Sound.isAt_stop (h : x.Sound d now) (hat : d.IsAt now) :
    (d.issueAll x.timer.stop.2.2).IsAt
      { now with marked := now.marked && !x.timer.stop.1 } := by
  refine hat.cycle x.timer.mem_cycle_of_stop ?_
  rw [h.stage.stop_eq]
  split
  · rw [Bool.not_true, Bool.and_false]
    exact (Timer.issue_stop h.wired h.live h.nodup).2.2.1
  · rw [Bool.not_false, Bool.and_true]
    exact hat.interruptNext

theorem Stage.polled_eq (h : x.Stage d now) (hframe : d.frame = UInt64.ofNat now.frame)
    (hnow : now.Fits d.timing) :
    x.polled (x.timer.poll d).2 now
      = ⟨if (x.notes.due? d.timing now.frame).isSome then { x.timer with state := .idle }
          else x.timer,
        .polled ⟨now.frame, (x.notes.due? d.timing now.frame).isSome⟩ :: x.notes⟩ := by
  rw [NotedTimer.polled, h.poll_eq hframe hnow]
  dsimp only
  congr 4
  rcases hdue : x.notes.due? d.timing now.frame with _ | lap
  · rw [Option.isSome_none, if_neg nofun, Bool.and_not_self]
  · cases h with
    | idle _ hvacant => cases hdue.symm.trans (TimerNotes.due?_eq_none hvacant.2)
    | recording _ _ hcollected => cases hdue.symm.trans (TimerNotes.due?_eq_none hcollected)
    | inFlight hstate => simp [Timer.isInFlight, hstate]

theorem Sound.polled (h : x.Sound d now) (hframe : d.frame = UInt64.ofNat now.frame)
    (hnow : now.Fits d.timing) : (x.polled (x.timer.poll d).2 now).Sound d now := by
  have horderly := TimerNotes.orderly_polled now.frame h.orderly h.stage.collected_tail
  rw [h.stage.polled_eq hframe hnow]
  refine h.next (List.forall_mem_nil _) (by split <;> rfl) ?_ horderly ?_
  · rw [List.append_nil]
    exact script_polled _ (by split <;> rfl) _
  · cases h.stage with
    | idle hstate hvacant =>
      rw [TimerNotes.due?_eq_none hvacant.2]
      exact .idle hstate ⟨hvacant.1, TimerNotes.collected_polled _ hvacant.2⟩
    | recording hstate hopened hcollected hle hopening =>
      rw [TimerNotes.due?_eq_none hcollected]
      exact .recording hstate hopened (TimerNotes.collected_polled _ hcollected) hle hopening
    | @inFlight lap laps hstate hopened hlaps hlap hcollected hclosed =>
      rw [TimerNotes.due?_of_cons hlaps hlap hcollected]
      have hpolled (p : PollNote) : TimerNotes.laps (.polled p :: x.notes)
          = lap.poll p :: laps := by
        rw [TimerNotes.laps, hlaps]
        rfl
      split
      · refine .idle rfl ⟨hopened, ?_⟩
        rw [hpolled]
        exact List.forall_mem_cons.mpr ⟨(lap.collected_poll _).mpr (Or.inl rfl), hcollected⟩
      · refine .inFlight hstate hopened (hpolled _) ?_ hcollected ?_
        · rw [Lap.collected_poll]
          exact not_or_intro Bool.false_ne_true hlap
        · exact ⟨hclosed.opened, hclosed.fits, hclosed.frame_le, hclosed.reading, hclosed.mark⟩

end NotedTimer

end EffectChain
