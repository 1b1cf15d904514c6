import EffectChain.Proofs.Timing.Averages
import EffectChain.Proofs.Timing.Protocol

/-!
# Durations that do not fit a word

A poll computes a duration as a number of any size and hands it out as a word. What does not fit is
not cut off at the largest word: the poll answers the remainder (`Reading.sample`), so a duration of
more than five centuries may be told as a moment. A sample is the duration or the largest word only
if the duration fits, or if its remainder happens to be the largest word
(`Reading.faithful_sample_iff`).

As long as durations fit they are told in order. A measurement with fewer ticks, or of a faster
clock, is told to be no longer (`Reading.sample_le_sample`), and so is the average of such
measurements (`Timer.collect_wraps`). The ticks are those of the draws between a start and a stop:
in a session of timers a lap that is due is a measurement with the clock of its two moments
(`TimerSession.completes_run`).
-/

namespace EffectChain

/-! ## Readings -/

/-- The readings of a measurement: the clock at its two ends, and the ticks of a second. -/
structure Reading where
  /-- The clock at its start. -/
  opening : UInt64
  /-- The clock at its end. -/
  closing : UInt64
  /-- The ticks of a second. -/
  frequency : UInt64
  deriving DecidableEq

namespace Reading

/-- The ticks that passed, none if the clock went back. -/
def ticks (r : Reading) : Nat := r.closing.toNat - r.opening.toNat

def nanoseconds (r : Reading) : Nat := r.ticks * 1000000000 / r.frequency.toNat

def Fits (r : Reading) : Prop := r.nanoseconds < UInt64.size

instance (r : Reading) : Decidable r.Fits := inferInstanceAs (Decidable (_ < _))

def sample (r : Reading) : UInt64 := UInt64.ofNat r.nanoseconds

/-- The word tells the nanoseconds, or is the largest one because they do not fit. -/
def Faithful (r : Reading) (x : UInt64) : Prop :=
  x.toNat = r.nanoseconds ∨ ¬r.Fits ∧ x.toNat = UInt64.size - 1

instance (r : Reading) (x : UInt64) : Decidable (r.Faithful x) :=
  inferInstanceAs (Decidable (_ ∨ _))

/-- No more ticks passed, of a clock that is no slower. -/
structure NoLonger (r r' : Reading) : Prop where
  ticks : r.ticks ≤ r'.ticks
  frequency : r'.frequency ≤ r.frequency

variable {r r' : Reading}

theorem toNat_sample (r : Reading) : r.sample.toNat = r.nanoseconds % UInt64.size :=
  UInt64.toNat_ofNat'

theorem toNat_sample_of_fits (h : r.Fits) : r.sample.toNat = r.nanoseconds :=
  UInt64.toNat_ofNat_of_lt' h

/-- **What does not fit is reduced**, not cut off. -/
theorem faithful_sample_iff (r : Reading) :
    r.Faithful r.sample ↔ r.Fits ∨ r.nanoseconds % UInt64.size = UInt64.size - 1 := by
  rw [Faithful, toNat_sample]
  by_cases hfits : r.Fits
  · exact iff_of_true (Or.inl (Nat.mod_eq_of_lt hfits)) (Or.inl hfits)
  · have hlt : r.nanoseconds % UInt64.size < UInt64.size := Nat.mod_lt _ (by decide)
    have hne : r.nanoseconds % UInt64.size ≠ r.nanoseconds :=
      fun heq ↦ hfits (heq.symm.trans_lt hlt)
    simp only [hfits, hne, false_or, not_false_eq_true, true_and]

theorem NoLonger.nanoseconds_le (h : r.NoLonger r') (hfrequency : r'.frequency ≠ 0) :
    r.nanoseconds ≤ r'.nanoseconds := by
  have hpos : 0 < r'.frequency.toNat :=
    Nat.pos_of_ne_zero fun hzero ↦ hfrequency (UInt64.toNat_inj.mp hzero)
  calc r.nanoseconds
      ≤ r'.ticks * 1000000000 / r.frequency.toNat :=
        Nat.div_le_div_right (Nat.mul_le_mul_right _ h.ticks)
    _ ≤ r'.nanoseconds := Nat.div_le_div_left (UInt64.le_iff_toNat_le.mp h.frequency) hpos

/-- **Samples are in order as long as they fit.** -/
theorem sample_le_sample (h : r.NoLonger r') (hfrequency : r'.frequency ≠ 0) (hfits : r'.Fits) :
    r.sample ≤ r'.sample := by
  have hle := h.nanoseconds_le hfrequency
  rw [UInt64.le_iff_toNat_le, toNat_sample_of_fits (hle.trans_lt hfits), toNat_sample_of_fits hfits]
  exact hle

end Reading

/-! ## Polls -/

namespace Timer

/-- The timer can be polled: it was stopped, all three of its results are there, the clock ticks and
was not interrupted. -/
structure Completes (t : Timer) (d : Device) (r : Reading) : Prop where
  inFlight : t.state = .inFlight
  interval : d.queryData? t.interval = some (.disjoint r.frequency false)
  opening : d.queryData? t.opening = some (.timestamp r.opening)
  closing : d.queryData? t.closing = some (.timestamp r.closing)
  ticking : r.frequency ≠ 0

variable {t : Timer} {d : Device} {r : Reading} {window : Nat}

theorem Completes.poll (h : t.Completes d r) :
    t.poll d = (some r.sample, { t with state := .idle }) := by
  rw [Timer.poll, if_pos h.inFlight, h.interval, h.opening, h.closing]
  simp only [h.ticking, Bool.false_eq_true, or_self, if_false]
  rfl

theorem Completes.collect (h : t.Completes d r) (a : MovingAverage window) :
    (t.collect d a).2 = a.append r.sample := by
  rw [collect_eq, h.poll]
  rfl

/-- The average of timers that are polled one after the other, each on a device of its own time. -/
def collectAll (window : Nat) (polls : List (Timer × Device)) : MovingAverage window :=
  polls.foldl (fun a x ↦ (x.1.collect x.2 a).2) {}

theorem collectAll_eq {polls : List (Timer × Device)} {readings : List Reading}
    (h : List.Forall₂ (fun x r ↦ x.1.Completes x.2 r) polls readings) :
    collectAll window polls = (readings.map Reading.sample).foldl MovingAverage.append {} := by
  rw [collectAll]
  generalize ({} : MovingAverage window) = a
  induction h generalizing a with
  | nil => rfl
  | cons hfirst _ ih => rw [List.foldl_cons, List.map_cons, List.foldl_cons, hfirst.collect, ih]

end Timer

/-! ## Laps -/

def Lap.reading (timing : DeviceTiming) (lap : Lap) : Reading :=
  ⟨lap.opening.clock timing, lap.closing.clock timing, timing.frequency⟩

theorem NotedTimer.Stage.of_due {d : Device} {now : Moment} {x : NotedTimer} {lap : Lap}
    (h : x.Stage d now) (hdue : x.notes.due? d.timing now.frame = some lap) :
    x.timer.state = .inFlight ∧ x.timer.Closed d lap ∧ lap.due d.timing ≤ now.frame := by
  cases h with
  | idle _ hvacant => cases hdue.symm.trans (TimerNotes.due?_eq_none hvacant.2)
  | recording _ _ hcollected => cases hdue.symm.trans (TimerNotes.due?_eq_none hcollected)
  | inFlight hstate _ hlaps hlap hcollected hclosed =>
    rw [TimerNotes.due?_of_cons hlaps hlap hcollected] at hdue
    split at hdue <;> cases hdue
    rename_i hlate
    exact ⟨hstate, hclosed, hlate⟩

theorem Timer.Closed.completes {d : Device} {now : Moment} {t : Timer} {lap : Lap}
    (h : t.Closed d lap) (hstate : t.state = .inFlight) (hat : d.IsAt now)
    (hnow : now.Fits d.timing) (hdue : lap.due d.timing ≤ now.frame)
    (hmarked : lap.closing.marked = false) (hfrequency : d.timing.frequency ≠ 0) :
    t.Completes d (lap.reading d.timing) := by
  have hframe : now.frame < UInt64.size := (Nat.le_add_right _ _).trans_lt hnow.ready
  have hready : lap.closing.ready d.timing ≤ d.frame := by
    rw [hat.frame]
    exact (UInt64.ofNat_le_iff_le h.fits.ready hframe).mpr hdue
  have hopened := Moment.ready_le_ready h.opened.fits h.fits h.frame_le
  refine ⟨hstate, ?_, ?_, ?_, hfrequency⟩
  · rw [h.mark.queryData?, if_pos hready, hmarked]
    rfl
  · rw [h.opened.reading.queryData?, if_pos (UInt64.le_trans hopened hready)]
    rfl
  · rw [h.reading.queryData?, if_pos hready]
    rfl

theorem Timer.Closed.nanoseconds_reading {d : Device} {t : Timer} {lap : Lap} (h : t.Closed d lap) :
    (lap.reading d.timing).nanoseconds = lap.nanoseconds d.timing := by
  rw [Reading.nanoseconds, Reading.ticks, Lap.reading, Moment.clock, Moment.clock,
    UInt64.toNat_ofNat_of_lt' h.opened.fits.clock, UInt64.toNat_ofNat_of_lt' h.fits.clock,
    ← Nat.sub_mul]
  rfl

/-- **Measurements come from draws.** In a session of timers a lap that is due can be polled unless
it was interrupted, and its nanoseconds are those of the draws between its start and its stop. -/
theorem TimerSession.completes_run (timing : DeviceTiming) (events : List TimerEvent)
    (hfits : (run timing events).now.Fits timing) (hfrequency : timing.frequency ≠ 0)
    {x : NotedTimer} (hx : x ∈ (run timing events).timers) {lap : Lap}
    (hdue : x.notes.due? timing (run timing events).now.frame = some lap)
    (hmarked : lap.closing.marked = false) :
    x.timer.Completes (run timing events).device (lap.reading timing) ∧
      (lap.reading timing).nanoseconds = lap.nanoseconds timing := by
  have hs := sound_run timing hfits
  have htiming := timing_run timing events
  obtain ⟨i, hi⟩ := List.getElem?_of_mem hx
  generalize run timing events = s at *
  subst htiming
  obtain ⟨hstate, hclosed, hlate⟩ := (hs.timers hi).stage.of_due hdue
  exact ⟨hclosed.completes hstate hs.isAt hfits hlate hmarked hfrequency,
    hclosed.nanoseconds_reading⟩

/-! ## Samples and averages -/

namespace Timer

variable {window : Nat}

/-- **A duration that does not fit a word is reduced.** Of measurements that are complete, each poll
takes the nanoseconds of its readings modulo the size of a word, and an average is over what was
taken. Only as long as they fit, fewer ticks or a faster clock make no longer durations. -/
theorem collect_wraps {polls : List (Timer × Device)} {readings : List Reading}
    (h : List.Forall₂ (fun x r ↦ x.1.Completes x.2 r) polls readings) :
    List.Forall₂ (fun x r ↦ x.1.poll x.2 = (some r.sample, { x.1 with state := .idle }) ∧
      r.sample.toNat = r.nanoseconds % UInt64.size ∧
      (r.Faithful r.sample ↔ r.Fits ∨ r.nanoseconds % UInt64.size = UInt64.size - 1))
      polls readings ∧
    (collectAll window polls).get.toNat
      = sampleSum ((readings.map Reading.sample).rtake window) / min readings.length window ∧
    ∀ (polls' : List (Timer × Device)) (readings' : List Reading),
      List.Forall₂ (fun x r ↦ x.1.Completes x.2 r) polls' readings' →
      List.Forall₂ Reading.NoLonger readings readings' → (∀ r ∈ readings', r.Fits) →
        List.Forall₂ (fun r r' ↦ r.sample ≤ r'.sample) readings readings' ∧
          (collectAll window polls).get ≤ (collectAll window polls').get := by
  refine ⟨h.imp fun x r hx ↦ ⟨hx.poll, r.toNat_sample, r.faithful_sample_iff⟩, ?_,
    fun polls' readings' h' hshorter hfits ↦ ?_⟩
  · rw [collectAll_eq h, MovingAverage.toNat_get, MovingAverage.recent_samples, List.length_reverse,
      sampleSum_perm (List.reverse_perm _), List.rtake, List.length_drop, List.length_map]
    congr 1
    omega
  · -- the second sequence fits, so its clock does tick
    have hticking : ∀ r ∈ readings', r.frequency ≠ 0 := by
      intro r hr
      obtain ⟨x, -, hx⟩ := exists_of_forall₂_right h' hr
      exact hx.ticking
    have hsamples : List.Forall₂ (fun r r' ↦ r.sample ≤ r'.sample) readings readings' := by
      refine ((List.forall₂_and_left _ _).mpr ⟨fun r' hr' ↦ hr', hshorter.flip⟩).flip.imp
        fun r r' hr ↦ ?_
      exact Reading.sample_le_sample hr.2 (hticking r' hr.1) (hfits r' hr.1)
    refine ⟨hsamples, MovingAverage.get_le_get ?_⟩
    rw [collectAll_eq h, collectAll_eq h', MovingAverage.recent_samples,
      MovingAverage.recent_samples, List.forall₂_reverse_iff, List.rtake, List.rtake,
      List.length_map, List.length_map, hshorter.length_eq]
    exact List.forall₂_drop _
      (List.forall₂_map_left_iff.mpr (List.forall₂_map_right_iff.mpr hsamples))

/-- A draw takes 18446744074 seconds, which a poll tells as less than one. With a tick less they
fit, and are told to be no shorter than on a clock that is twice as fast. -/
theorem collect_wraps_slow :
    let session (frequency ticksPerDraw : UInt64) := TimerSession.run { frequency, ticksPerDraw }
      [.create, .start 0, .draw 3, .stop 0, .advanceFrame]
    let timer : Timer := ⟨⟨1⟩, ⟨2⟩, ⟨3⟩, .inFlight⟩
    let polls (frequency ticksPerDraw : UInt64) :=
      [(timer, (session frequency ticksPerDraw).device)]
    (session 1 18446744074).timers.map (·.timer) = [timer] ∧
      (⟨0, 18446744074, 1⟩ : Reading).nanoseconds = 18446744074000000000 ∧
      (timer.poll (session 1 18446744074).device).1 = some 290448384 ∧
      (collectAll 60 (polls 1 18446744074)).get.toNat
        = sampleSum [Reading.sample ⟨0, 18446744074, 1⟩] / 1 ∧
      (collectAll 60 (polls 2 18446744073)).get ≤ (collectAll 60 (polls 1 18446744073)).get := by
  intro session timer polls
  have hcompletes (frequency ticks : UInt64) (hticking : frequency ≠ 0)
      (hinterval : (session frequency ticks).device.queryData? ⟨1⟩
        = some (.disjoint frequency false))
      (hopening : (session frequency ticks).device.queryData? ⟨2⟩ = some (.timestamp 0))
      (hclosing : (session frequency ticks).device.queryData? ⟨3⟩ = some (.timestamp ticks)) :
      List.Forall₂ (fun x r ↦ x.1.Completes x.2 r) (polls frequency ticks)
        [⟨0, ticks, frequency⟩] :=
    .cons ⟨rfl, hinterval, hopening, hclosing, hticking⟩ .nil
  obtain ⟨hpoll, hmean, -⟩ := @collect_wraps 60 _ _ (hcompletes 1 18446744074 (by decide)
    (by decide +kernel) (by decide +kernel) (by decide +kernel))
  obtain ⟨-, -, horder⟩ := @collect_wraps 60 _ _ (hcompletes 2 18446744073 (by decide)
    (by decide +kernel) (by decide +kernel) (by decide +kernel))
  refine ⟨by decide +kernel, by decide +kernel, ?_, hmean, (horder _ [⟨0, 18446744073, 1⟩]
    (hcompletes 1 18446744073 (by decide) (by decide +kernel) (by decide +kernel)
      (by decide +kernel)) (.cons ⟨by decide +kernel, by decide⟩ .nil)
    (List.forall_mem_singleton.mpr (by decide +kernel))).2⟩
  rcases hpoll with _ | ⟨⟨hpoll, -⟩, -⟩
  rw [hpoll]
  decide +kernel

end Timer

end EffectChain
