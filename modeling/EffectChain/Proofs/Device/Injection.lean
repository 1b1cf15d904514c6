import EffectChain.Proofs.Device.Runs

/-!
# Refusals that the host asked for

A host can ask a device to refuse a creation of a kind that follows so many others. Which attempts
at a kind are refused depends on them and on the requests for refusals of that kind, and on nothing
else (`Device.Run.refused_attempts`): creations of other kinds, their refusals, releases and
commands may come between them in any number. Each kind has a queue of refusals (`Device.awaited`),
of which only the first one counts down, and a refusal is gone once it has struck
(`Device.strikes`).

What counts is an attempt, and not a success. An attempt whose arguments turn out to be invalid
counts as well, so a refusal strikes after as many attempts as were asked for, whatever came of them
(`Device.Run.refusedAfter_attempts`). All other attempts come to what they would without refusals.
-/

namespace EffectChain

open Device (create takeRefusal)

/-- The texture for a view is not there or does not fit, if it is not to be had. -/
theorem Device.viewable_ne_outOfMemory (d : Device) (kind : ObjectKind) (t : Handle .texture)
    (format : Format) (other : ObjectKind) :
    d.viewable kind t format ≠ .error (.outOfMemory other) := by
  intro heq
  rw [viewable] at heq
  repeat' split at heq
  all_goals cases heq

theorem Device.bind_ne_outOfMemory {α β : Type} {x : Except DeviceError α}
    {f : α → Except DeviceError β} {kind : ObjectKind} (hx : x ≠ .error (.outOfMemory kind))
    (hf : ∀ a, f a ≠ .error (.outOfMemory kind)) : (x >>= f) ≠ .error (.outOfMemory kind) := by
  rcases x with e | a
  · intro heq
    cases heq
    exact hx rfl
  · exact hf a

namespace Request

/-- A creation looks at its arguments and at what is alive. Nothing there is a want of memory. -/
theorem exists_creation_eq_create (request : Request) :
    ∃ content, request.creation = create request.kind content ∧
      (∀ d refusals, content { d with refusals } = content d) ∧
      ∀ d kind, content d ≠ .error (.outOfMemory kind) := by
  cases request with
  | texture desc =>
    refine ⟨_, by rw [creation]; rfl, fun _ _ ↦ rfl, fun d kind heq ↦ ?_⟩
    simp only [Texture.make] at heq
    repeat' split at heq
    all_goals cases heq
  | shaderView t format levels =>
    refine ⟨_, by rw [creation]; rfl, fun _ _ ↦ rfl, fun d kind ↦ Device.bind_ne_outOfMemory
      (d.viewable_ne_outOfMemory _ t format kind) fun texture heq ↦ ?_⟩
    simp only [bind, Except.bind, throw, throwThe, MonadExceptOf.throw] at heq
    repeat' split at heq
    all_goals cases heq
  | renderTargetView t format =>
    refine ⟨_, by rw [creation]; rfl, fun _ _ ↦ rfl, fun d kind ↦ Device.bind_ne_outOfMemory
      (d.viewable_ne_outOfMemory _ t format kind) fun texture heq ↦ ?_⟩
    simp only [bind, Except.bind, throw, throwThe, MonadExceptOf.throw] at heq
    repeat' split at heq
    all_goals cases heq
  | depthStencilView t =>
    refine ⟨_, by rw [creation]; rfl, fun _ _ ↦ rfl, fun d kind heq ↦ ?_⟩
    repeat' split at heq
    all_goals cases heq
  | sampler | shader | buffer =>
    refine ⟨_, by rw [creation]; rfl, fun _ _ ↦ rfl, fun d kind heq ↦ ?_⟩
    split at heq <;> cases heq
  | blendState | depthStencilState | query =>
    exact ⟨_, by rw [creation]; rfl, fun _ _ ↦ rfl, fun d kind heq ↦ by cases heq⟩

theorem creation_of_refused {request : Request} {d : Device}
    (hrefused : (takeRefusal request.kind d.refusals).1 = true) :
    (request.creation d).1 = .error (.outOfMemory request.kind) := by
  obtain ⟨content, hcreation⟩ := request.exists_creation_eq
  rw [hcreation, Device.create_of_refused hrefused]

theorem creation_of_not_refused {request : Request} {d : Device}
    (hrefused : (takeRefusal request.kind d.refusals).1 = false) :
    (request.creation d).1 = (request.creation { d with refusals := [] }).1 ∧
      ∀ kind, (request.creation d).1 ≠ .error (.outOfMemory kind) := by
  obtain ⟨content, hcreation, hblind, hmemory⟩ := request.exists_creation_eq_create
  have hfree : (takeRefusal request.kind ({ d with refusals := [] } : Device).refusals).1 = false :=
    rfl
  rw [hcreation]
  simp only [create, ExceptT.mk, hrefused, hfree, hblind]
  rcases hcontent : content d with e | c
  · refine ⟨rfl, fun kind heq ↦ ?_⟩
    cases heq
    exact hmemory d kind hcontent
  · exact ⟨rfl, fun kind heq ↦ by cases heq⟩

end Request

namespace Device

/-! ## The refusals of a kind -/

/-- The refusals of a kind that are to come, each as the number of attempts to let through. -/
def awaited (kind : ObjectKind) (refusals : List Refusal) : List Nat :=
  (refusals.filter (·.kind = kind)).map (·.after)

/-- Whether an attempt is refused, and the refusals that remain. -/
def countDown : List Nat → Bool × List Nat
  | [] => (false, [])
  | 0 :: later => (true, later)
  | (n + 1) :: later => (false, n :: later)

theorem awaited_cons (kind : ObjectKind) (x : Refusal) (later : List Refusal) :
    awaited kind (x :: later)
      = if x.kind = kind then x.after :: awaited kind later else awaited kind later := by
  by_cases hkind : x.kind = kind <;> simp [awaited, hkind]

theorem countDown_awaited (kind : ObjectKind) (refusals : List Refusal) :
    countDown (awaited kind refusals)
      = ((takeRefusal kind refusals).1, awaited kind (takeRefusal kind refusals).2) := by
  induction refusals with
  | nil => rfl
  | cons x later ih =>
    rw [takeRefusal, awaited_cons]
    by_cases hkind : x.kind = kind
    · rw [if_pos hkind, if_pos hkind]
      rcases hafter : x.after with _ | n
      · rfl
      · simp [countDown, awaited_cons, hkind]
    · rw [if_neg hkind, if_neg hkind, ih]
      dsimp only
      rw [awaited_cons, if_neg hkind]

/-- An attempt does not count against the refusals of other kinds. -/
theorem awaited_takeRefusal_of_ne {kind other : ObjectKind} (h : other ≠ kind)
    (refusals : List Refusal) :
    awaited kind (takeRefusal other refusals).2 = awaited kind refusals := by
  induction refusals with
  | nil => rfl
  | cons x later ih =>
    rw [takeRefusal]
    by_cases hother : x.kind = other
    · have hkind : x.kind ≠ kind := hother ▸ h
      rw [if_pos hother]
      split <;> simp [awaited_cons, hkind]
    · rw [if_neg hother]
      dsimp only
      rw [awaited_cons, awaited_cons, ih]

theorem refusals_create {kind : ObjectKind} (content : Device → Except DeviceError kind.Content)
    (d : Device) : (create kind content d).2.refusals = (takeRefusal kind d.refusals).2 := by
  simp only [create, ExceptT.mk]
  repeat' split
  all_goals rfl

theorem refusals_writeTexels (d : Device) (t : Handle .texture) (level : Nat) (data : Bytes) :
    (d.writeTexels t level data).2.refusals = d.refusals := by
  unfold writeTexels
  repeat' split
  all_goals rfl

/-- What the refusals of a kind are concerned with. -/
inductive Concern
  /-- An attempt at a creation of the kind. -/
  | attempt
  /-- A refusal of the kind is asked for. -/
  | refuse (after : Nat)

def strikes : List Nat → List Concern → List Bool
  | _, [] => []
  | pending, .attempt :: later => (countDown pending).1 :: strikes (countDown pending).2 later
  | pending, .refuse after :: later => strikes (pending ++ [after]) later

theorem strikes_nil_replicate (m : Nat) :
    strikes [] (List.replicate m .attempt) = List.replicate m false := by
  induction m with
  | zero => rfl
  | succ m ih => rw [List.replicate_succ, strikes, List.replicate_succ, countDown, ih]

theorem strikes_replicate (n m : Nat) :
    strikes [n] (List.replicate m .attempt) = (List.range m).map (· == n) := by
  induction m generalizing n with
  | zero => rfl
  | succ m ih =>
    rw [List.replicate_succ, strikes, List.range_succ_eq_map, List.map_cons, List.map_map]
    cases n with
    | zero =>
      rw [countDown, strikes_nil_replicate]
      simp [Function.comp_def, List.map_const']
    | succ n =>
      rw [countDown, ih]
      simp [Function.comp_def]

/-- What an operation means for the refusals of a kind. -/
def Operation.concern? (kind : ObjectKind) : Operation → Option Concern
  | .create request => if request.kind = kind then some .attempt else none
  | .failAfter other after => if other = kind then some (.refuse after) else none
  | _ => none

/-! ## Attempts -/

/-- A request, and the device that it is made to. -/
structure Attempt where
  /-- The device. -/
  device : Device
  /-- The request. -/
  request : Request

namespace Attempt

def outcome (a : Attempt) : Except DeviceError (Handle a.request.kind) :=
  (a.request.creation a.device).1

/-- What would come of it if the host had asked for no refusals. -/
def unhindered (a : Attempt) : Except DeviceError (Handle a.request.kind) :=
  (a.request.creation { a.device with refusals := [] }).1

def granted (a : Attempt) : Bool := a.outcome.isOk

def refused (a : Attempt) : Bool :=
  match a.outcome with
  | .error (.outOfMemory _) => true
  | _ => false

/-- There is something wrong with the arguments. -/
def rejected (a : Attempt) : Bool := !a.granted && !a.refused

theorem refused_eq_takeRefusal (a : Attempt) :
    a.refused = (takeRefusal a.request.kind a.device.refusals).1 := by
  cases hdue : (takeRefusal a.request.kind a.device.refusals).1 with
  | true => rw [refused, outcome, Request.creation_of_refused hdue]
  | false =>
    obtain ⟨-, hmemory⟩ := Request.creation_of_not_refused hdue
    rw [refused]
    split
    · rename_i kind heq
      exact absurd heq (hmemory kind)
    · rfl

theorem outcome_eq_error_iff (a : Attempt) :
    a.outcome = .error (.outOfMemory a.request.kind) ↔ a.refused = true := by
  refine ⟨fun h ↦ by rw [refused, h], fun h ↦ ?_⟩
  rw [refused_eq_takeRefusal] at h
  exact Request.creation_of_refused h

/-- An attempt that is not refused comes to what it would without refusals. -/
theorem outcome_eq_unhindered {a : Attempt} (h : a.refused = false) : a.outcome = a.unhindered := by
  rw [refused_eq_takeRefusal] at h
  exact (Request.creation_of_not_refused h).1

theorem rejected_eq_not_granted {a : Attempt} (h : a.refused = false) :
    a.rejected = !a.granted := by
  rw [rejected, h, Bool.not_false, Bool.and_true]

end Attempt

/-- What comes of the attempts at a kind after a refusal was asked for. -/
structure RefusedAfter (n : Nat) (attempts : List Attempt) : Prop where
  /-- The attempt that follows `n` others is refused, and no other one. -/
  refused : ∀ i a, attempts[i]? = some a →
    (a.outcome = .error (.outOfMemory a.request.kind) ↔ i = n)
  /-- All others come to what they would without refusals. -/
  others : ∀ i a, attempts[i]? = some a → i ≠ n → a.outcome = a.unhindered
  /-- As many objects as were asked for are created before the refusal, less the attempts whose
  arguments are invalid. -/
  before : n < attempts.length →
    (attempts.take n).countP (·.granted) + (attempts.take n).countP (·.rejected) = n

theorem RefusedAfter.of_refused {n m : Nat} {attempts : List Attempt}
    (hrefused : attempts.map (·.refused) = (List.range m).map (· == n)) :
    RefusedAfter n attempts := by
  have hat : ∀ i a, attempts[i]? = some a → a.refused = (i == n) := by
    intro i a ha
    have hi : (attempts.map (·.refused))[i]? = some a.refused := by rw [List.getElem?_map, ha]; rfl
    obtain ⟨hlt, hi⟩ := List.getElem?_eq_some_iff.mp (hrefused ▸ hi)
    rw [← hi, List.getElem_map, List.getElem_range]
  refine ⟨fun i a ha ↦ ?_, fun i a ha hi ↦ ?_, fun hn ↦ ?_⟩
  · rw [a.outcome_eq_error_iff, hat i a ha, beq_iff_eq]
  · exact Attempt.outcome_eq_unhindered ((hat i a ha).trans (beq_eq_false_iff_ne.mpr hi))
  · have hrejected : (attempts.take n).countP (·.rejected)
        = (attempts.take n).countP (!·.granted) := by
      refine List.countP_congr fun a ha ↦ ?_
      obtain ⟨i, hi, rfl⟩ := List.mem_take_iff_getElem.mp ha
      have hlt : i < n := by omega
      rw [Attempt.rejected_eq_not_granted (hat i _ (List.getElem?_eq_getElem _) |>.trans
        (beq_eq_false_iff_ne.mpr hlt.ne))]
    have hlength := List.length_eq_countP_add_countP (·.granted) (l := attempts.take n)
    rw [List.length_take_of_le hn.le] at hlength
    simpa [hrejected] using hlength.symm

namespace Run

/-- The attempt at a kind that an operation of the run is, if it is one. -/
def attempt? (kind : ObjectKind) (r : Run) : Operation → Option Attempt
  | .create request => if request.kind = kind then some ⟨r.device, request⟩ else none
  | _ => none

/-- The attempts of a run at creations of a kind, in order. -/
def attempts (kind : ObjectKind) (r : Run) : List Operation → List Attempt
  | [] => []
  | operation :: later =>
    (r.attempt? kind operation).toList ++ (r.perform operation).attempts kind later

/-- Only the attempts at a kind, and the requests to refuse them, change its refusals. -/
theorem awaited_perform (kind : ObjectKind) (r : Run) (operation : Operation) :
    awaited kind (r.perform operation).device.refusals =
      match operation.concern? kind with
      | none => awaited kind r.device.refusals
      | some .attempt => (countDown (awaited kind r.device.refusals)).2
      | some (.refuse after) => awaited kind r.device.refusals ++ [after] := by
  cases operation with
  | create request =>
    have hdevice : (r.perform (.create request)).device.refusals
        = (takeRefusal request.kind r.device.refusals).2 := by
      obtain ⟨content, hcreation⟩ := request.exists_creation_eq
      rw [← refusals_create content, ← hcreation, perform]
      split <;> rename_i hrun <;> rw [hrun]
    rw [hdevice, Operation.concern?, countDown_awaited]
    by_cases hkind : request.kind = kind
    · subst hkind
      rw [if_pos rfl]
    · rw [if_neg hkind]
      exact awaited_takeRefusal_of_ne hkind _
  | failAfter other after =>
    by_cases hkind : other = kind <;>
      simp [perform, failAfter, Operation.concern?, awaited, hkind]
  | issue c => exact congrArg (awaited kind) (refusals_apply _ c)
  | write t level data => exact congrArg (awaited kind) (refusals_writeTexels _ t level data)
  | release | markInterrupted | advanceFrame | takeLog => rfl

/-- **Which attempts at a kind are refused** depends on the refusals of the kind, and on when they
were asked for. -/
theorem refused_attempts (kind : ObjectKind) (r : Run) (operations : List Operation) :
    (r.attempts kind operations).map (·.refused)
      = strikes (awaited kind r.device.refusals) (operations.filterMap (·.concern? kind)) := by
  induction operations generalizing r with
  | nil => rw [attempts, List.filterMap_nil, strikes, List.map_nil]
  | cons operation later ih =>
    have hnext := awaited_perform kind r operation
    rw [attempts, List.map_append, ih, hnext, List.filterMap_cons]
    cases operation with
    | create request =>
      by_cases hkind : request.kind = kind
      · have hattempt : r.attempt? kind (.create request) = some ⟨r.device, request⟩ := if_pos hkind
        have hconcern : (Operation.create request).concern? kind = some .attempt := if_pos hkind
        rw [hattempt, hconcern, Option.toList_some, List.map_singleton, List.singleton_append]
        dsimp only
        rw [strikes, Attempt.refused_eq_takeRefusal, countDown_awaited, hkind]
      · have hattempt : r.attempt? kind (.create request) = none := if_neg hkind
        have hconcern : (Operation.create request).concern? kind = none := if_neg hkind
        rw [hattempt, hconcern, Option.toList_none, List.map_nil, List.nil_append]
    | failAfter other after =>
      by_cases hkind : other = kind
      · have hconcern : (Operation.failAfter other after).concern? kind = some (.refuse after) :=
          if_pos hkind
        rw [hconcern]
        rfl
      · have hconcern : (Operation.failAfter other after).concern? kind = none := if_neg hkind
        rw [hconcern]
        rfl
    | release | issue | write | markInterrupted | advanceFrame | takeLog => rfl

/-- Operations that ask for no refusal of a kind have attempts for it only. -/
theorem filterMap_concern?_eq_replicate {kind : ObjectKind} {operations : List Operation}
    (hnone : ∀ after, .failAfter kind after ∉ operations) :
    ∃ m, operations.filterMap (·.concern? kind) = List.replicate m .attempt := by
  refine ⟨_, List.eq_replicate_of_mem fun concern hconcern ↦ ?_⟩
  obtain ⟨operation, hmem, hconcern⟩ := List.mem_filterMap.mp hconcern
  cases operation with
  | create request =>
    rw [Operation.concern?, Option.ite_none_right_eq_some] at hconcern
    exact (Option.some.inj hconcern.2).symm
  | failAfter other after =>
    rw [Operation.concern?, Option.ite_none_right_eq_some] at hconcern
    exact absurd (hconcern.1 ▸ hmem) (hnone after)
  | release | issue | write | markInterrupted | advanceFrame | takeLog => cases hconcern

/-- **A refusal strikes once, after as many attempts as were asked for.** If no refusal of a kind is
to come when one is asked for, and none is asked for afterwards, then the attempts at the kind are
those of a device without refusals, but for the one that follows `n` others, whatever else is asked
of the device between them. -/
theorem refusedAfter_attempts {kind : ObjectKind} (r : Run) (n : Nat) (operations : List Operation)
    (hpending : ∀ x ∈ r.device.refusals, x.kind ≠ kind)
    (hnone : ∀ after, .failAfter kind after ∉ operations) :
    RefusedAfter n ((r.perform (.failAfter kind n)).attempts kind operations) := by
  obtain ⟨m, hconcerns⟩ := filterMap_concern?_eq_replicate hnone
  have hawaited : awaited kind (r.perform (.failAfter kind n)).device.refusals = [n] := by
    have hempty : r.device.refusals.filter (·.kind = kind) = [] :=
      List.filter_eq_nil_iff.mpr fun x hx ↦ by simpa using hpending x hx
    simp [perform, failAfter, awaited, hempty]
  refine .of_refused (m := m) ?_
  rw [refused_attempts, hawaited, hconcerns, strikes_replicate]

/-- A buffer of 16 bytes is to be let through. The first attempt is rejected for its size, so the
second one is refused although there is no buffer yet. -/
theorem refusedAfter_attempts_rejected :
    let r := start {}
    let operations : List Operation :=
      [.create (.query .timestamp), .create (.buffer 8), .failAfter .query 0, .release [],
        .create (.buffer 16), .create (.query .timestamp), .create (.buffer 16)]
    let attempts := (r.perform (.failAfter .buffer 1)).attempts .buffer operations
    RefusedAfter 1 attempts ∧ attempts.map (·.refused) = [false, true, false] ∧
      (attempts.take 1).countP (·.granted) = 0 :=
  ⟨refusedAfter_attempts (start {}) 1 _ (fun _ hx ↦ nomatch hx) (by simp), by decide +kernel,
    by decide +kernel⟩

end Run

end Device

end EffectChain
