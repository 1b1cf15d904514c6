import EffectChain.Timing.Timer

/-!
# Laps

What a timer was asked and what it answered is written down in notes, last first (`TimerNotes`). A
start and the stop that follows it, both accepted, make a lap, and the polls after the stop are made
for that lap until the next one is closed (`TimerNotes.laps`). So the notes tell which lap is open,
which one can be collected (`TimerNotes.due?`), and what it is worth (`Lap.sample?`), without a look
at a query.

A lap is collected in an orderly way if of its polls the one that takes it is the first one made in
a frame that is late enough (`Lap.Orderly`). Whether it was collected then depends on the frames of
the polls alone (`Lap.Orderly.collected_iff`).
-/

namespace EffectChain

/-! ## Notes -/

/-- A moment in the use of a device, as a host would count. -/
structure Moment where
  /-- The draws so far. -/
  draws : Nat := 0
  /-- The frames so far. -/
  frame : Nat := 0
  /-- Whether an interruption was marked since a timer last stopped. -/
  marked : Bool := false
  deriving DecidableEq

/-- A poll. -/
structure PollNote where
  /-- The frame it was made in. -/
  frame : Nat
  /-- Whether the timer was in flight before and is not any more. -/
  taken : Bool

/-- Something that a timer was asked to do. -/
inductive TimerNote
  | started (accepted : Bool) (now : Moment)
  | stopped (accepted : Bool) (now : Moment)
  | polled (poll : PollNote)

/-- What a timer was asked to do, last first. -/
abbrev TimerNotes : Type := List TimerNote

/-- What was measured from a start to the stop after it. -/
structure Lap where
  /-- When it was started. -/
  opening : Moment
  /-- When it was stopped. -/
  closing : Moment
  /-- The polls after that, last first. -/
  polls : List PollNote := []

namespace Lap

def Collected (lap : Lap) : Prop := ∃ p ∈ lap.polls, p.taken = true

instance (lap : Lap) : Decidable lap.Collected :=
  inferInstanceAs (Decidable (∃ p ∈ lap.polls, p.taken = true))

/-- The first frame in which the results of the lap can be read. -/
def due (timing : DeviceTiming) (lap : Lap) : Nat := lap.closing.frame + timing.latency.toNat

/-- The whole nanoseconds that the draws took from the start of the lap to its stop. -/
def nanoseconds (timing : DeviceTiming) (lap : Lap) : Nat :=
  let ticks := (lap.closing.draws - lap.opening.draws) * timing.ticksPerDraw.toNat
  ticks * 1000000000 / timing.frequency.toNat

/-- What the lap is worth: its nanoseconds, as a word. A lap that was interrupted is worth nothing,
nor is one on a clock without a frequency. -/
def sample? (timing : DeviceTiming) (lap : Lap) : Option UInt64 :=
  if lap.closing.marked ∨ timing.frequency = 0 then none
  else some (UInt64.ofNat (lap.nanoseconds timing))

def poll (p : PollNote) (lap : Lap) : Lap := { lap with polls := p :: lap.polls }

/-- A poll took the lap exactly if it was the first one that was not too early. -/
def Orderly (timing : DeviceTiming) (lap : Lap) : Prop :=
  ∀ p earlier, p :: earlier <:+ lap.polls →
    (p.taken = true ↔ lap.due timing ≤ p.frame ∧ ∀ e ∈ earlier, e.frame < lap.due timing)

end Lap

namespace TimerNotes

def opened? : TimerNotes → Option Moment
  | [] | .stopped true _ :: _ => none
  | .started true now :: _ => some now
  | .started false _ :: notes | .stopped false _ :: notes | .polled _ :: notes => opened? notes

/-- The laps that were closed, last first. -/
def laps : TimerNotes → List Lap
  | [] => []
  | .stopped true closing :: notes =>
    ((opened? notes).map fun opening ↦ { opening, closing }).toList ++ laps notes
  | .polled p :: notes => (laps notes).modifyHead (·.poll p)
  | .started .. :: notes | .stopped false _ :: notes => laps notes

/-- There is neither an open lap nor one to collect. -/
def Vacant (notes : TimerNotes) : Prop :=
  notes.opened? = none ∧ ∀ lap ∈ notes.laps, lap.Collected

instance (notes : TimerNotes) : Decidable notes.Vacant :=
  inferInstanceAs (Decidable (notes.opened? = none ∧ ∀ lap ∈ notes.laps, lap.Collected))

/-- The lap that a poll would collect in a frame. -/
def due? (timing : DeviceTiming) (frame : Nat) (notes : TimerNotes) : Option Lap :=
  notes.laps.find? fun lap ↦ lap.due timing ≤ frame ∧ ¬lap.Collected

end TimerNotes

/-! ## Timers with notes -/

/-- The commands of a lap: two of its start, and two of its stop. -/
def Timer.cycle (t : Timer) : List Command :=
  [.beginQuery t.interval, .endQuery t.opening, .endQuery t.closing, .endQuery t.interval]

/-- A timer with its notes. -/
structure NotedTimer where
  /-- The timer. -/
  timer : Timer
  /-- What it was asked to do. -/
  notes : TimerNotes := []

namespace NotedTimer

def started (x : NotedTimer) (now : Moment) : NotedTimer :=
  ⟨x.timer.start.2.1, .started x.timer.start.1 now :: x.notes⟩

def stopped (x : NotedTimer) (now : Moment) : NotedTimer :=
  ⟨x.timer.stop.2.1, .stopped x.timer.stop.1 now :: x.notes⟩

def polled (x : NotedTimer) (after : Timer) (now : Moment) : NotedTimer :=
  ⟨after, .polled ⟨now.frame, x.timer.isInFlight && !after.isInFlight⟩ :: x.notes⟩

/-- The commands of the laps: a cycle for every one that was closed, and half of one for a lap that
is open. -/
def script (x : NotedTimer) : List Command :=
  (List.replicate x.notes.laps.length x.timer.cycle).flatten
    ++ if x.notes.opened?.isSome then x.timer.cycle.take 2 else []

end NotedTimer

/-! ## Orderly laps -/

namespace Lap

variable {timing : DeviceTiming} {lap : Lap} {p : PollNote}

theorem collected_poll (lap : Lap) (p : PollNote) :
    (lap.poll p).Collected ↔ p.taken = true ∨ lap.Collected := by
  simp only [Collected, poll, List.mem_cons, exists_eq_or_imp]

theorem orderly_nil (opening closing : Moment) : Orderly timing { opening, closing } :=
  fun _ _ h ↦ absurd (List.suffix_nil.mp h) (List.cons_ne_nil _ _)

theorem orderly_poll_iff (lap : Lap) (p : PollNote) :
    (lap.poll p).Orderly timing ↔ lap.Orderly timing ∧
      (p.taken = true ↔ lap.due timing ≤ p.frame ∧ ∀ e ∈ lap.polls, e.frame < lap.due timing) := by
  refine ⟨fun h ↦ ⟨fun q earlier hq ↦ h q earlier (hq.trans (List.suffix_cons p _)),
    h p lap.polls (List.suffix_refl _)⟩, fun ⟨h, hp⟩ q earlier hq ↦ ?_⟩
  rcases List.suffix_cons_iff.mp hq with heq | hq
  · obtain ⟨rfl, rfl⟩ : q = p ∧ earlier = lap.polls := List.cons_eq_cons.mp heq
    exact hp
  · exact h q earlier hq

/-- What was collected was collected in time, and once it could be it was. -/
theorem Orderly.collected_iff (h : lap.Orderly timing) :
    lap.Collected ↔ ∃ p ∈ lap.polls, lap.due timing ≤ p.frame := by
  obtain ⟨opening, closing, polls⟩ := lap
  induction polls with
  | nil => exact ⟨nofun, nofun⟩
  | cons p polls ih =>
    obtain ⟨hearlier, hfirst⟩ := (orderly_poll_iff ⟨opening, closing, polls⟩ p).mp h
    refine (collected_poll ⟨opening, closing, polls⟩ p).trans ?_
    simp only [ih hearlier, hfirst, List.mem_cons, exists_eq_or_imp]
    -- a poll that is not too early is the first such, or there was one before
    refine ⟨Or.imp_left And.left, fun hdue ↦ ?_⟩
    by_cases hbefore : ∃ e ∈ polls, due timing ⟨opening, closing, polls⟩ ≤ e.frame
    · exact Or.inr hbefore
    · refine Or.inl ⟨hdue.resolve_right hbefore, fun e he ↦ Nat.not_le.mp fun hle ↦ ?_⟩
      exact hbefore ⟨e, he, hle⟩

theorem Orderly.not_collected_iff (h : lap.Orderly timing) :
    ¬lap.Collected ↔ ∀ p ∈ lap.polls, p.frame < lap.due timing := by
  simp only [h.collected_iff, not_exists, not_and, Nat.not_le]

/-- One more poll takes a lap if that is due and was not collected before. -/
theorem Orderly.poll (h : lap.Orderly timing)
    (hp : p.taken = true ↔ lap.due timing ≤ p.frame ∧ ¬lap.Collected) :
    (lap.poll p).Orderly timing := by
  rw [h.not_collected_iff] at hp
  exact (lap.orderly_poll_iff p).mpr ⟨h, hp⟩

/-- **No lap is collected twice.** -/
theorem Orderly.countP_le_one (h : lap.Orderly timing) : lap.polls.countP (·.taken) ≤ 1 := by
  obtain ⟨opening, closing, polls⟩ := lap
  induction polls with
  | nil => exact Nat.zero_le 1
  | cons p polls ih =>
    obtain ⟨hearlier, hfirst⟩ := (orderly_poll_iff ⟨opening, closing, polls⟩ p).mp h
    rw [List.countP_cons]
    split
    · rename_i htaken
      have huncollected := hearlier.not_collected_iff.mpr (hfirst.mp htaken).2
      have hnone : polls.countP (·.taken) = 0 :=
        List.countP_eq_zero.mpr fun e he htaken' ↦ huncollected ⟨e, he, htaken'⟩
      omega
    · exact ih hearlier

end Lap

/-! ## Laps to collect -/

namespace TimerNotes

variable {timing : DeviceTiming} {frame : Nat} {notes : TimerNotes} {lap : Lap} {laps' : List Lap}

theorem laps_stopped {opening closing : Moment} (hopened : opened? notes = some opening) :
    laps (.stopped true closing :: notes) = { opening, closing } :: laps notes := by
  rw [laps, hopened]
  rfl

theorem due?_eq_none (hcollected : ∀ lap ∈ laps notes, lap.Collected) :
    due? timing frame notes = none :=
  List.find?_eq_none.mpr fun lap hlap ↦ by simp [hcollected lap hlap]

theorem due?_of_cons (hlaps : laps notes = lap :: laps') (hlap : ¬lap.Collected)
    (hcollected : ∀ lap ∈ laps', lap.Collected) :
    due? timing frame notes = if lap.due timing ≤ frame then some lap else none := by
  rw [due?, hlaps]
  split
  · rename_i hdue
    exact List.find?_cons_of_pos (by simp [hdue, hlap])
  · rename_i hdue
    rw [List.find?_cons_of_neg (by simp [hdue])]
    exact List.find?_eq_none.mpr fun lap hlap ↦ by simp [hcollected lap hlap]

theorem collected_polled (p : PollNote) (hcollected : ∀ lap ∈ laps notes, lap.Collected) :
    ∀ lap ∈ laps (.polled p :: notes), lap.Collected := by
  rw [laps]
  rcases hlaps : laps notes with _ | ⟨lap, laps'⟩ <;> rw [hlaps] at hcollected
  · exact nofun
  · obtain ⟨hlap, hearlier⟩ := List.forall_mem_cons.mp hcollected
    exact List.forall_mem_cons.mpr ⟨(lap.collected_poll p).mpr (Or.inr hlap), hearlier⟩

/-- **A poll that takes what is due keeps all laps orderly.** -/
theorem orderly_polled (frame : Nat) (horderly : ∀ lap ∈ laps notes, lap.Orderly timing)
    (hcollected : ∀ lap ∈ (laps notes).tail, lap.Collected) :
    ∀ lap ∈ laps (.polled ⟨frame, (due? timing frame notes).isSome⟩ :: notes),
      lap.Orderly timing := by
  rw [laps]
  rcases hlaps : laps notes with _ | ⟨lap, laps'⟩ <;> rw [hlaps] at horderly hcollected
  · exact nofun
  · obtain ⟨hlap, hearlier⟩ := List.forall_mem_cons.mp horderly
    refine List.forall_mem_cons.mpr ⟨hlap.poll ?_, hearlier⟩
    by_cases hdone : lap.Collected
    · rw [due?_eq_none (by rw [hlaps]; exact List.forall_mem_cons.mpr ⟨hdone, hcollected⟩)]
      simp [hdone]
    · rw [due?_of_cons hlaps hdone hcollected]
      split <;> simp [*]

end TimerNotes

/-! ## Commands of the laps -/

namespace NotedTimer

open TimerNotes (opened? laps laps_stopped)

variable {x : NotedTimer} {now : Moment}

theorem script_started (hopened : opened? x.notes = none) (state : TimerState) :
    script ⟨{ x.timer with state }, .started true now :: x.notes⟩
      = x.script ++ x.timer.cycle.take 2 := by
  simp [script, opened?, laps, hopened, Timer.cycle]

theorem script_stopped {opening : Moment} (hopened : opened? x.notes = some opening)
    (state : TimerState) :
    script ⟨{ x.timer with state }, .stopped true now :: x.notes⟩
      = x.script ++ x.timer.cycle.drop 2 := by
  simp [script, opened?, laps_stopped hopened, hopened, Timer.cycle, List.replicate_succ']

theorem script_polled (after : Timer) (hcycle : after.cycle = x.timer.cycle) (p : PollNote) :
    script ⟨after, .polled p :: x.notes⟩ = x.script := by
  rw [script, script, laps, List.length_modifyHead, hcycle, opened?]

end NotedTimer

end EffectChain
