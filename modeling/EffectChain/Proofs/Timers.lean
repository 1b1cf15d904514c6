import EffectChain.Proofs.Works

/-!
# What a timer finds

A measurement is two readings of the clock with draws in between, and the interruption mark at its
end (`Measurement`). A timer that is stopped leaves one behind in its three queries
(`Timer.holds_of_measure`), where it stays until the timer polls, since a query is changed by
commands on that query only. So whatever a poll takes is a measurement as a whole, and never the
readings of two (`Timer.poll_of_holds`).
-/

namespace EffectChain

/-! ## The clock -/

/-- The number of vertices that a command draws, if it draws. -/
def Command.vertices? : Command → Option UInt32
  | .draw vertices => some vertices
  | _ => none

def drawnBy (cs : List Command) : List UInt32 := cs.filterMap Command.vertices?

theorem drawnBy_append (cs cs' : List Command) : drawnBy (cs ++ cs') = drawnBy cs ++ drawnBy cs' :=
  List.filterMap_append

def Command.isQuery : Command → Bool
  | .beginQuery _ | .endQuery _ => true
  | _ => false

namespace Device

variable {d d' : Device}

theorem clock_issue_draw (d : Device) (vertices : UInt32) :
    (d.issue (.draw vertices)).clock = d.clock + d.timing.ticksPerDraw := rfl

theorem clock_issue_of_none {c : Command} (h : c.vertices? = none) :
    (d.issue c).clock = d.clock := by
  change (d.apply c).clock = d.clock
  cases c <;> simp only [apply, transfer, finishQuery] <;> repeat' split
  all_goals first
    | rfl
    | cases h

theorem timing_issueAll (d : Device) (cs : List Command) :
    (d.issueAll cs).timing = d.timing := by
  induction cs generalizing d with
  | nil => rfl
  | cons c cs ih => exact (ih (d.issue c)).trans (timing_issue d c)

theorem clock_issueAll {cs : List Command}
    (h : d.clock.toNat + (drawnBy cs).length * d.timing.ticksPerDraw.toNat < 2 ^ 64) :
    (d.issueAll cs).clock.toNat
      = d.clock.toNat + (drawnBy cs).length * d.timing.ticksPerDraw.toNat := by
  induction cs generalizing d with
  | nil => simp [issueAll, drawnBy]
  | cons c cs ih =>
    have hrest := ih (d := d.issue c)
    rw [timing_issue] at hrest
    rcases hc : c.vertices? with _ | vertices
    · have hdrawn : drawnBy (c :: cs) = drawnBy cs := List.filterMap_cons_none hc
      rw [hdrawn] at h ⊢
      rw [clock_issue_of_none hc] at hrest
      exact hrest h
    · have hdrawn : drawnBy (c :: cs) = vertices :: drawnBy cs := List.filterMap_cons_some hc
      obtain rfl : c = .draw vertices := by
        cases c <;> cases hc
        rfl
      rw [hdrawn, List.length_cons, Nat.succ_mul] at h ⊢
      have htick : (d.issue (.draw vertices)).clock.toNat
          = d.clock.toNat + d.timing.ticksPerDraw.toNat := by
        rw [clock_issue_draw, UInt64.toNat_add, Nat.mod_eq_of_lt (by omega)]
      rw [htick] at hrest
      have hall : (d.issueAll (.draw vertices :: cs)).clock.toNat = _ := hrest (by omega)
      omega

theorem frame_issue (d : Device) (c : Command) : (d.issue c).frame = d.frame := by
  change (d.apply c).frame = d.frame
  cases c <;> simp only [apply, transfer, finishQuery] <;> repeat' split
  all_goals rfl

theorem frame_issueAll (d : Device) (cs : List Command) : (d.issueAll cs).frame = d.frame := by
  induction cs generalizing d with
  | nil => rfl
  | cons c cs ih => exact (ih (d.issue c)).trans (frame_issue d c)

/-- Only the end of a query takes the mark of an interruption off. -/
theorem interruptNext_issue (d : Device) {c : Command} (h : c.isQuery = false) :
    (d.issue c).interruptNext = d.interruptNext := by
  change (d.apply c).interruptNext = d.interruptNext
  cases c <;> simp only [apply, transfer] <;> repeat' split
  all_goals first
    | rfl
    | cases h

theorem waits_issue (d : Device) {c : Command} (hquery : c.isQuery = false)
    (hdraw : c.vertices? = none) : d.Waits (d.issue c) where
  timing := timing_issue d c
  frame := frame_issue d c
  clock := clock_issue_of_none hdraw
  interruptNext := interruptNext_issue d hquery

theorem waits_issueAll (d : Device) {cs : List Command}
    (h : ∀ c ∈ cs, c.isQuery = false ∧ c.vertices? = none) : d.Waits (d.issueAll cs) := by
  induction cs generalizing d with
  | nil => exact refl_of Waits d
  | cons c cs ih =>
    rw [List.forall_mem_cons] at h
    exact trans_of Waits (waits_issue d h.1.1 h.1.2) (ih (d.issue c) h.2)

theorem waits_of_isOpening {c : Command} (hc : c.isOpening) (d : Device) : d.Waits (d.issue c) := by
  obtain ⟨view, rfl⟩ := hc
  exact waits_issue d rfl rfl

/-! ## Results of queries -/

theorem touched?_endQuery_of_ne {q q' : Handle .query} (hne : q ≠ q') (d : Device) :
    (Command.endQuery q).touched? d ≠ some q'.ref :=
  fun heq ↦ hne (Handle.ref_inj.mp (Option.some.inj heq))

/-- What is found for the query is what was found before. -/
def Leaves (d d' : Device) (q : Handle .query) : Prop :=
  ∀ c : Query, d'.get? q = some c → d.get? q = some c

theorem Leaves.trans {d₁ d₂ d₃ : Device} {q : Handle .query} (h₁₂ : d₁.Leaves d₂ q)
    (h₂₃ : d₂.Leaves d₃ q) : d₁.Leaves d₃ q := fun c hc ↦ h₁₂ c (h₂₃ c hc)

theorem leaves_issueAll {cs : List Command} {q : Handle .query}
    (h : ∀ c ∈ cs, c.touched? d ≠ some q.ref) : d.Leaves (d.issueAll cs) q :=
  fun _ hc ↦ (get?_issueAll_of_ne h).symm.trans hc

theorem Works.leaves {ok : Command → Prop} (h : d.Works ok d') {q : Handle .query}
    (hok : ∀ c, ok c → ∀ d : Device, c.touched? d ≠ some q.ref) (hid : q.id ≤ d.lastId) :
    d.Leaves d' q :=
  fun _ hc ↦ h.get?_of_ne (by decide) hok hid hc

/-- What is found for the query, if anything, has this result. -/
def Answers (d : Device) (q : Handle .query) (data : QueryData) : Prop :=
  ∀ c : Query, d.get? q = some c → ∃ ready, c.state = .pending ready data

theorem Answers.leaves {q : Handle .query} {data : QueryData} (h : d.Answers q data)
    (hleaves : d.Leaves d' q) : d'.Answers q data := fun c hc ↦ h c (hleaves c hc)

theorem Answers.queryData? {q : Handle .query} {data data' : QueryData} (h : d.Answers q data)
    (hdata : d.queryData? q = some data') : data' = data := by
  rw [Device.queryData?] at hdata
  rcases hc : d.get? q with _ | c <;> rw [hc] at hdata
  · cases hdata
  · obtain ⟨ready, hstate⟩ := h c hc
    dsimp only at hdata
    rw [hstate] at hdata
    dsimp only at hdata
    split at hdata <;> cases hdata
    rfl

theorem finishQuery_timestamp {q : Handle .query} (h : d.Made q ({ kind := .timestamp } : Query)) :
    (d.finishQuery q).Answers q (.timestamp d.clock) ∧
      (d.finishQuery q).interruptNext = d.interruptNext := by
  rw [finishQuery]
  rcases hc : d.get? q with _ | c
  · exact ⟨fun c hc' ↦ absurd (hc'.symm.trans hc) (Option.some_ne_none c), rfl⟩
  · dsimp only
    rw [show c.kind = .timestamp from h.alike hc]
    refine ⟨fun c' hc' ↦ ?_, rfl⟩
    have hmod := (Store.get?_modify_self _ _ _).symm.trans hc'
    rw [show d.objects.get? q = some c from hc] at hmod
    cases hmod
    exact ⟨_, rfl⟩

theorem finishQuery_disjoint {q : Handle .query} (h : d.Made q ({ kind := .disjoint } : Query)) :
    (d.finishQuery q).Answers q (.disjoint d.timing.frequency d.interruptNext) := by
  rw [finishQuery]
  rcases hc : d.get? q with _ | c
  · exact fun c hc' ↦ absurd (hc'.symm.trans hc) (Option.some_ne_none c)
  · dsimp only
    rw [show c.kind = .disjoint from h.alike hc]
    intro c' hc'
    have hmod := (Store.get?_modify_self _ _ _).symm.trans hc'
    rw [show d.objects.get? q = some c from hc] at hmod
    cases hmod
    exact ⟨_, rfl⟩

end Device

/-! ## Measurements -/

/-- A measurement that was submitted. -/
structure Measurement where
  /-- The clock at its start. -/
  opening : UInt64
  /-- The clock at its end. -/
  closing : UInt64
  /-- Whether the interruption mark was set at its end. -/
  interrupted : Bool
  /-- What was drawn from its start to its end. -/
  draws : List UInt32

def Measurement.nanoseconds (m : Measurement) (frequency : UInt64) : UInt64 :=
  Timer.nanoseconds m.opening m.closing frequency

namespace Timer

/-- The queries are of the kinds that a timer needs. -/
structure Wired (d : Device) (t : Timer) : Prop where
  interval : d.Made t.interval ({ kind := .disjoint } : Query)
  opening : d.Made t.opening ({ kind := .timestamp } : Query)
  closing : d.Made t.closing ({ kind := .timestamp } : Query)

/-- The queries have the results of the measurement. -/
structure Holds (d : Device) (t : Timer) (m : Measurement) : Prop where
  interval : d.Answers t.interval (.disjoint d.timing.frequency m.interrupted)
  opening : d.Answers t.opening (.timestamp m.opening)
  closing : d.Answers t.closing (.timestamp m.closing)

variable {d d' : Device} {t : Timer} {m : Measurement}

theorem Wired.evolves (h : t.Wired d) (hd : d.Evolves d') : t.Wired d' :=
  ⟨h.interval.evolves hd, h.opening.evolves hd, h.closing.evolves hd⟩

theorem ne_of_nodup_queries (h : t.queries.Nodup) :
    t.interval ≠ t.opening ∧ t.interval ≠ t.closing ∧ t.opening ≠ t.closing := by
  simp only [queries, List.nodup_cons, List.mem_cons, not_or] at h
  exact ⟨h.1.1, h.1.2.1, h.2.1.1⟩

theorem Wired.id_le (h : t.Wired d) : ∀ q ∈ t.queries, q.id ≤ d.lastId := by
  simp only [queries, List.forall_mem_cons]
  exact ⟨h.interval.id_le, h.opening.id_le, h.closing.id_le, List.forall_mem_nil _⟩

theorem Holds.leaves (h : t.Holds d m) (htiming : d'.timing = d.timing)
    (hleaves : ∀ q ∈ t.queries, d.Leaves d' q) : t.Holds d' m := by
  simp only [queries, List.forall_mem_cons] at hleaves
  refine ⟨?_, h.opening.leaves hleaves.2.1, h.closing.leaves hleaves.2.2.1⟩
  rw [htiming]
  exact h.interval.leaves hleaves.1

theorem wired_of_create (run : create d = (.ok t, d')) : t.Wired d' ∧ t.state = .idle := by
  rw [create] at run
  obtain ⟨interval, d₁, hinterval, run⟩ := bind_eq_ok run
  obtain ⟨opening, d₂, hopening, run⟩ := bind_eq_ok (keeping_eq_ok run)
  obtain ⟨closing, d₃, hclosing, run⟩ := bind_eq_ok (keeping_eq_ok run)
  cases run
  have hmade {kind : QueryKind} {q : Handle .query} {d d' : Device}
      (run : Device.createQuery kind d = (.ok q, d')) : d'.Made q ({ kind } : Query) := by
    obtain ⟨_, c, hc, -, hmade⟩ := Device.made_of_create run
    cases hc
    exact hmade
  have hevolves₂ : d₁.Evolves d₂ := Device.Evolves.create.run hopening
  have hevolves₃ : d₂.Evolves d' := Device.Evolves.create.run hclosing
  exact ⟨⟨(hmade hinterval).evolves (hevolves₂.trans hevolves₃), (hmade hopening).evolves hevolves₃,
    hmade hclosing⟩, rfl⟩

theorem poll_of_ne (h : t.state ≠ .inFlight) (d : Device) : t.poll d = (none, t) := by
  rw [poll, if_neg h]

/-- **A poll takes the measurement, or nothing.** -/
theorem poll_of_holds (h : t.Holds d m) (hstate : t.state = .inFlight) :
    t.poll d = (none, t) ∨
    t.poll d = (if m.interrupted ∨ d.timing.frequency = 0 then none
      else some (m.nanoseconds d.timing.frequency), { t with state := .idle }) := by
  rw [poll, if_pos hstate]
  split
  · rename_i frequency interrupted opening closing hinterval hopening hclosing
    cases h.interval.queryData? hinterval
    cases h.opening.queryData? hopening
    cases h.closing.queryData? hclosing
    exact Or.inr rfl
  · exact Or.inl rfl

/-- **What is measured.** Between the start and the end of a measurement other work may be done that
leaves the queries alone. -/
theorem holds_of_measure (hwired : t.Wired d) (hnodup : t.queries.Nodup) {body : List Command}
    (hbody : ∀ q ∈ t.queries, ∀ c ∈ body, c.touched? d ≠ some q.ref) (draws : List UInt32) :
    let ended := d.issueAll ([.beginQuery t.interval, .endQuery t.opening] ++ body)
    t.Holds (ended.issueAll [.endQuery t.closing, .endQuery t.interval])
      ⟨d.clock, ended.clock, ended.interruptNext, draws⟩ := by
  intro ended
  simp only [queries, List.forall_mem_cons] at hbody
  obtain ⟨hio, hic, hoc⟩ := ne_of_nodup_queries hnodup
  have hended : d.Evolves ended := Device.Evolves.issueAll d _
  have hclosed : ended.Evolves (ended.issue (.endQuery t.closing)) := Device.Evolves.issue ended _
  obtain ⟨hclosing, hmark⟩ := Device.finishQuery_timestamp (hwired.closing.evolves hended)
  refine ⟨?_, ?_, ?_⟩
  · have hinterval := Device.finishQuery_disjoint
      ((hwired.interval.evolves hended).evolves hclosed)
    rw [show (ended.issue (.endQuery t.closing)).interruptNext = ended.interruptNext from hmark]
      at hinterval
    rw [Device.timing_issueAll, ← Device.timing_issue ended (.endQuery t.closing)]
    exact hinterval
  · -- the timestamp was taken ahead of all draws, and no later command is on its query
    let begun := d.issue (.beginQuery t.interval)
    have hbegun : d.Evolves begun := Device.Evolves.issue d _
    have hopening := (Device.finishQuery_timestamp (hwired.opening.evolves hbegun)).1
    refine Device.Answers.leaves (d := begun.issue (.endQuery t.opening)) hopening ?_
    have hdrawn : (begun.issue (.endQuery t.opening)).Leaves ended t.opening :=
      Device.leaves_issueAll fun c hc ↦ by
        rw [Device.touched?_issue, Device.touched?_issue]
        exact hbody.2.1 c hc
    refine hdrawn.trans (Device.leaves_issueAll ?_)
    simp only [List.forall_mem_cons]
    exact ⟨Device.touched?_endQuery_of_ne (Ne.symm hoc) _, Device.touched?_endQuery_of_ne hio _,
      List.forall_mem_nil _⟩
  · refine Device.Answers.leaves (d := ended.issue (.endQuery t.closing)) hclosing
      (Device.leaves_issueAll
        (List.forall_mem_singleton.mpr (Device.touched?_endQuery_of_ne hic _)))

end Timer

end EffectChain
