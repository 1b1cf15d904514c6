import EffectChain.Proofs.Sampling
import EffectChain.Proofs.Texels
import EffectChain.Proofs.Timing.Laps

/-!
# What the commands of a timer leave

A start and a stop are told by the results that they leave in the queries (`Timer.issue_start`,
`Timer.issue_stop`) and by what becomes of the mark of an interruption, which only the end of an
interval takes. They touch the queries of the timer and no others, and take no time. A new timer has
three queries of its own (`Timer.new_of_create`), and nothing that was there is changed by its
creation, whether that succeeds or not (`Timer.spares_create`, `Timer.quiet_create`).
-/

namespace EffectChain

/-! ## Results -/

namespace Device

variable {d : Device} {q : Handle .query}

theorem issue_endQuery_timestamp (hmade : d.Made q ({ kind := .timestamp } : Query))
    (hlive : q.ref ∈ d.live) :
    (d.issue (.endQuery q)).HasResult q (d.frame + d.timing.latency) (.timestamp d.clock) ∧
      (d.issue (.endQuery q)).interruptNext = d.interruptNext := by
  obtain ⟨hanswers, hmark⟩ := finishQuery_timestamp hmade
  exact ⟨(isPending_endQuery hlive).hasResult hanswers, hmark⟩

theorem issue_endQuery_disjoint (hmade : d.Made q ({ kind := .disjoint } : Query))
    (hlive : q.ref ∈ d.live) :
    (d.issue (.endQuery q)).HasResult q (d.frame + d.timing.latency)
        (.disjoint d.timing.frequency d.interruptNext) ∧
      (d.issue (.endQuery q)).interruptNext = false := by
  refine ⟨(isPending_endQuery hlive).hasResult (finishQuery_disjoint hmade), ?_⟩
  obtain ⟨c, hc⟩ := get?_of_mem_live hlive
  change (d.finishQuery q).interruptNext = false
  rw [finishQuery, hc]
  dsimp only
  rw [show c.kind = .disjoint from hmade.alike hc]

/-- Nothing is issued, and no time passes. -/
structure Quiet (d d' : Device) : Prop where
  evolves : d.Evolves d'
  waits : d.Waits d'
  log : d'.log = d.log

instance : Std.Refl Quiet := ⟨fun d ↦ ⟨refl_of Evolves d, refl_of Waits d, rfl⟩⟩

instance : IsTrans Device Quiet :=
  ⟨fun _ _ _ h h' ↦ ⟨trans_of Evolves h.evolves h'.evolves, trans_of Waits h.waits h'.waits,
    h'.log.trans h.log⟩⟩

theorem Quiet.housekeeping : Housekeeping Quiet where
  create content d :=
    ⟨Evolves.create d, Waits.housekeeping.create content d, log_create content d⟩
  release d refs := ⟨Evolves.release d refs, Waits.housekeeping.release d refs, rfl⟩

end Device

/-! ## Commands of a timer -/

theorem Command.not_measures {queries others : List (Handle .query)} {c : Command}
    (h : c.measures queries) (hothers : ∀ q ∈ others, q ∉ queries) : c.measures others = false := by
  cases c with
  | beginQuery q | endQuery q =>
    exact decide_eq_false fun hq ↦ hothers q hq (of_decide_eq_true h)
  | _ => rfl

namespace Timer

open Device (Quiet)

variable {d d' : Device} {t : Timer}

theorem measures_cycle (t : Timer) : ∀ c ∈ t.cycle, c.measures t.queries := by
  simp [cycle, queries, Command.measures]

theorem mem_cycle_of_start (t : Timer) : ∀ c ∈ t.start.2.2, c ∈ t.cycle := by
  rw [start]
  split
  · exact fun c hc ↦ List.mem_of_mem_take (show c ∈ t.cycle.take 2 from hc)
  · exact List.forall_mem_nil _

theorem mem_cycle_of_stop (t : Timer) : ∀ c ∈ t.stop.2.2, c ∈ t.cycle := by
  rw [stop]
  split
  · exact fun c hc ↦ List.mem_of_mem_drop (show c ∈ t.cycle.drop 2 from hc)
  · exact List.forall_mem_nil _

theorem touched?_cycle (d : Device) {q : Handle .query} (hq : q ∉ t.queries) :
    ∀ c ∈ t.cycle, c.touched? d ≠ some q.ref :=
  fun c hc htouched ↦ hq (Command.touched?_of_measures (t.measures_cycle c hc) htouched)

theorem clock_cycle (d : Device) {cs : List Command} (hcs : ∀ c ∈ cs, c ∈ t.cycle) :
    (d.issueAll cs).clock = d.clock := by
  induction cs generalizing d with
  | nil => rfl
  | cons c cs ih =>
    obtain ⟨hc, hrest⟩ := List.forall_mem_cons.mp hcs
    have hvertices : c.vertices? = none := by
      simp only [cycle, List.mem_cons, List.not_mem_nil, or_false] at hc
      rcases hc with rfl | rfl | rfl | rfl <;> rfl
    exact (ih (d.issue c) hrest).trans (Device.clock_issue_of_none hvertices)

theorem issue_start (hwired : t.Wired d) (hlive : ∀ q ∈ t.queries, q.ref ∈ d.live) :
    (d.issueAll (t.cycle.take 2)).HasResult t.opening (d.frame + d.timing.latency)
        (.timestamp d.clock) ∧
      (d.issueAll (t.cycle.take 2)).interruptNext = d.interruptNext := by
  have hbegun : d.Evolves (d.issue (.beginQuery t.interval)) := Device.Evolves.issue d _
  have hopening : t.opening.ref ∈ (d.issue (.beginQuery t.interval)).live := by
    rw [Device.live_issue]
    exact hlive _ (by simp [queries])
  exact Device.issue_endQuery_timestamp (hwired.opening.evolves hbegun) hopening

/-- A stop takes another one, and then the mark of an interruption. -/
theorem issue_stop (hwired : t.Wired d) (hlive : ∀ q ∈ t.queries, q.ref ∈ d.live)
    (hnodup : t.queries.Nodup) :
    let stopped := d.issueAll (t.cycle.drop 2)
    stopped.HasResult t.closing (d.frame + d.timing.latency) (.timestamp d.clock) ∧
      stopped.HasResult t.interval (d.frame + d.timing.latency)
        (.disjoint d.timing.frequency d.interruptNext) ∧
      stopped.interruptNext = false ∧ stopped.get? t.opening = d.get? t.opening := by
  intro stopped
  simp only [queries, List.forall_mem_cons] at hlive
  obtain ⟨hio, hic, hoc⟩ := ne_of_nodup_queries hnodup
  obtain ⟨hclosing, hmark⟩ := Device.issue_endQuery_timestamp hwired.closing hlive.2.2.1
  have hclosed : d.Evolves (d.issue (.endQuery t.closing)) := Device.Evolves.issue d _
  obtain ⟨hinterval, htaken⟩ := Device.issue_endQuery_disjoint (hwired.interval.evolves hclosed)
    (by rw [Device.live_issue]; exact hlive.1)
  rw [hmark, Device.frame_issue, Device.timing_issue] at hinterval
  have hafter := Device.touched?_endQuery_of_ne hic (d.issue (.endQuery t.closing))
  refine ⟨hclosing.congr (Device.get?_issue_of_ne hafter), hinterval, htaken, ?_⟩
  refine Device.get?_issueAll_of_ne (List.forall_mem_cons.mpr
    ⟨Device.touched?_endQuery_of_ne (Ne.symm hoc) d, List.forall_mem_singleton.mpr ?_⟩)
  exact Device.touched?_endQuery_of_ne hio d

/-! ## Creation of a timer -/

theorem quiet_create : Steady Quiet create := by
  have hrelease {q : Handle .query} (d : Device) : d.Quiet (d.release [q.ref]) :=
    Quiet.housekeeping.release d _
  rw [create]
  refine Steady.bind (Quiet.housekeeping.create _) fun interval ↦ Steady.keeping ?_ hrelease
  refine Steady.bind (Quiet.housekeeping.create _) fun opening ↦ Steady.keeping ?_ hrelease
  exact Steady.bind (Quiet.housekeeping.create _) fun closing ↦ Steady.pure _

/-- What was there is not changed by the creation of a timer, whatever comes of it. -/
theorem spares_create (origin : Device) : origin.Spares create fun _ ↦ True := by
  have hlater {q : Handle .query} (hid : origin.lastId < q.id) : origin.Later [q.ref] :=
    List.forall_mem_singleton.mpr hid
  rw [create]
  refine Device.Spares.create.bind fun interval hinterval ↦ ?_
  refine Device.Spares.keeping (hlater hinterval) (Device.Spares.create.bind fun opening ho ↦ ?_)
  refine Device.Spares.keeping (hlater ho) (Device.Spares.create.bind fun closing _ ↦ ?_)
  exact Device.Spares.pure trivial

theorem new_of_create (run : create d = (.ok t, d')) :
    t.queries.Nodup ∧ ∀ q ∈ t.queries, d.lastId < q.id ∧ q.ref ∈ d'.live := by
  have hnew {kind : QueryKind} {q : Handle .query} {d d' : Device}
      (run : Device.createQuery kind d = (.ok q, d')) :
      q = ⟨d.lastId + 1⟩ ∧ d'.lastId = d.lastId + 1 ∧ d'.live = q.ref :: d.live := by
    obtain ⟨_, c, -, rfl, rfl⟩ := Device.create_eq_ok run
    exact ⟨rfl, rfl, Store.refs_insert _ _ _⟩
  rw [create] at run
  obtain ⟨interval, d₁, hinterval, run⟩ := bind_eq_ok run
  obtain ⟨opening, d₂, hopening, run⟩ := bind_eq_ok (keeping_eq_ok run)
  obtain ⟨closing, d₃, hclosing, run⟩ := bind_eq_ok (keeping_eq_ok run)
  cases run
  obtain ⟨hi, hi', hlive₁⟩ := hnew hinterval
  obtain ⟨ho, ho', hlive₂⟩ := hnew hopening
  obtain ⟨hc, -, hlive₃⟩ := hnew hclosing
  rw [hi'] at ho ho'
  rw [ho'] at hc
  constructor
  · simp [queries, hi, ho, hc]
  · simp [queries, hi, ho, hc, hlive₃, hlive₂, hlive₁]
    omega

end Timer

end EffectChain
