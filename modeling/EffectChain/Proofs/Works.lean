import EffectChain.Proofs.Housekeeping
import EffectChain.Proofs.Rests

/-!
# The work a session does on its device

Whatever an event of a session does to the device is made of a few kinds of step: a creation is
tried, objects are released, a command is issued, texels are overwritten, or something is changed
that is no object (`Device.Step`). Which commands an event can issue is known beforehand
(`Event.issues`), and that is all there is to know about most of them (`Session.works_step`).

A command changes at most one object (`Command.touched?`). What is stored for a handle therefore
stays what it is through any work that issues no command on it, and goes through a relation of its
own through work that does (`Device.Works.get?`).
-/

namespace EffectChain

open Relation (ReflTransGen)

/-! ## What a command changes -/

def Command.isDraw : Command → Bool
  | .draw _ => true
  | _ => false

/-- The object whose content a command changes. -/
def Command.touched? (d : Device) : Command → Option ObjectRef
  | .updateTexture texture _ _ => some texture.ref
  | .updateConstantBuffer buffer _ => some buffer.ref
  | .generateMips view => (d.viewTexture? view).map Handle.ref
  | .copyResource target _ | .resolve target _ _ => some target.ref
  | .clearRenderTarget view _ => (d.targetTexture? view).map Handle.ref
  | .clearStencil view _ => (d.get? view).map Handle.ref
  | .beginQuery query | .endQuery query => some query.ref
  | .setShaders .. | .setSamplers _ | .setShaderResources _ | .setConstantBuffer _
  | .setBlendState _ | .setDepthStencilState .. | .setRenderTargets .. | .setViewport ..
  | .draw _ => none

namespace Device

variable {d d' : Device} {kind : ObjectKind}

theorem get?_transfer_of_ne {target source : Handle .texture} {f : Texture → Texture → Texture}
    {x : Handle kind} (hne : target.ref ≠ x.ref) :
    (d.transfer target source f).get? x = d.get? x := by
  rw [transfer]
  split
  · rfl
  · exact d.get?_modify_of_ne _ hne

theorem get?_finishQuery_of_ne {q : Handle .query} {x : Handle kind} (hne : q.ref ≠ x.ref) :
    (d.finishQuery q).get? x = d.get? x := by
  rw [finishQuery]
  split
  · rfl
  · split
    · exact d.get?_modify_of_ne _ hne
    · exact d.get?_modify_of_ne _ hne

theorem get?_issue_of_ne {c : Command} {x : Handle kind} (hne : c.touched? d ≠ some x.ref) :
    (d.issue c).get? x = d.get? x := by
  change (d.apply c).get? x = d.get? x
  cases c with
  | updateTexture t data rowPitch => exact d.get?_modify_of_ne _ fun h ↦ hne (congrArg some h)
  | updateConstantBuffer b data => exact d.get?_modify_of_ne _ fun h ↦ hne (congrArg some h)
  | generateMips view =>
    rw [apply]
    split
    · rfl
    · rename_i t ht
      refine d.get?_modify_of_ne _ fun h ↦ hne ?_
      rw [Command.touched?, ht, Option.map_some, h]
  | copyResource t s => exact get?_transfer_of_ne fun h ↦ hne (congrArg some h)
  | resolve t s format => exact get?_transfer_of_ne fun h ↦ hne (congrArg some h)
  | clearRenderTarget view color =>
    rw [apply]
    split
    · rfl
    · rename_i v hv
      refine d.get?_modify_of_ne _ fun h ↦ hne ?_
      rw [Command.touched?, targetTexture?, hv, Option.map_some, Option.map_some, h]
  | clearStencil view value =>
    rw [apply]
    split
    · rfl
    · rename_i t ht
      refine d.get?_modify_of_ne _ fun h ↦ hne ?_
      rw [Command.touched?, ht, Option.map_some, h]
  | beginQuery q => exact d.get?_modify_of_ne _ fun h ↦ hne (congrArg some h)
  | endQuery q => exact get?_finishQuery_of_ne fun h ↦ hne (congrArg some h)
  | _ => rfl

/-- Commands change textures, but for an upload into a buffer and for the ends of a query. -/
theorem touched?_cases {c : Command} {r : ObjectRef} (h : c.touched? d = some r) :
    r.kind = .texture ∨
      (∃ (x : Handle .buffer) (data : Bytes), c = .updateConstantBuffer x data ∧ r = x.ref) ∨
      ∃ q : Handle .query, (c = .beginQuery q ∨ c = .endQuery q) ∧ r = q.ref := by
  have hmap {o : Option (Handle .texture)} (ho : o.map Handle.ref = some r) :
      r.kind = .texture := by
    obtain ⟨t, -, rfl⟩ := Option.map_eq_some_iff.mp ho
    rfl
  cases c with
  | updateTexture | copyResource | resolve => cases h; exact Or.inl rfl
  | generateMips | clearRenderTarget | clearStencil => exact Or.inl (hmap h)
  | updateConstantBuffer x data => cases h; exact Or.inr (Or.inl ⟨x, data, rfl, rfl⟩)
  | beginQuery q => cases h; exact Or.inr (Or.inr ⟨q, Or.inl rfl, rfl⟩)
  | endQuery q => cases h; exact Or.inr (Or.inr ⟨q, Or.inr rfl, rfl⟩)
  | _ => cases h

theorem get?_issue_of_kind (c : Command) (x : Handle kind)
    (hkind : kind ≠ .texture ∧ kind ≠ .buffer ∧ kind ≠ .query) :
    (d.issue c).get? x = d.get? x := by
  refine get?_issue_of_ne fun h ↦ ?_
  rcases touched?_cases h with h | ⟨_, _, -, h⟩ | ⟨_, -, h⟩
  · exact hkind.1 h
  · exact hkind.2.1 (congrArg ObjectRef.kind h)
  · exact hkind.2.2 (congrArg ObjectRef.kind h)

theorem get?_issueAll_of_kind (cs : List Command) (x : Handle kind)
    (hkind : kind ≠ .texture ∧ kind ≠ .buffer ∧ kind ≠ .query) :
    (d.issueAll cs).get? x = d.get? x := by
  induction cs generalizing d with
  | nil => rfl
  | cons c cs ih => exact ih.trans (get?_issue_of_kind c x hkind)

theorem touched?_issue (c c' : Command) : c.touched? (d.issue c') = c.touched? d := by
  cases c with
  | generateMips view =>
    rw [Command.touched?, Command.touched?, viewTexture?, viewTexture?,
      get?_issue_of_kind c' view (by decide)]
  | clearRenderTarget view color =>
    rw [Command.touched?, Command.touched?, targetTexture?, targetTexture?,
      get?_issue_of_kind c' view (by decide)]
  | clearStencil view value =>
    rw [Command.touched?, Command.touched?, get?_issue_of_kind c' view (by decide)]
  | _ => rfl

theorem touched?_issueAll (c : Command) (cs : List Command) :
    c.touched? (d.issueAll cs) = c.touched? d := by
  induction cs generalizing d with
  | nil => rfl
  | cons c' cs ih => exact ih.trans (touched?_issue c c')

theorem get?_issueAll_of_ne {cs : List Command} {x : Handle kind}
    (hne : ∀ c ∈ cs, c.touched? d ≠ some x.ref) : (d.issueAll cs).get? x = d.get? x := by
  induction cs generalizing d with
  | nil => rfl
  | cons c cs ih =>
    refine (ih fun c' hc' ↦ ?_).trans (get?_issue_of_ne (hne c List.mem_cons_self))
    rw [touched?_issue]
    exact hne c' (List.mem_cons_of_mem c hc')

theorem timing_issue (d : Device) (c : Command) : (d.issue c).timing = d.timing := by
  change (d.apply c).timing = d.timing
  cases c <;> simp only [apply, transfer, finishQuery] <;> repeat' split
  all_goals rfl

theorem get?_writeTexels_of_ne {t : Handle .texture} {level : Nat} {data : Bytes} {x : Handle kind}
    (hne : t.ref ≠ x.ref) : (d.writeTexels t level data).2.get? x = d.get? x := by
  rw [writeTexels]
  split
  · split
    · exact d.get?_modify_of_ne _ hne
    · rfl
  · rfl

/-! ## Work -/

/-- A step of work, in which commands of one sort may be issued. -/
inductive Step (ok : Command → Prop) (d : Device) : Device → Prop
  /-- A creation is tried. -/
  | create {kind : ObjectKind} (content : Device → Except DeviceError kind.Content) :
    Step ok d (Device.create kind content d).2
  /-- Objects are released. -/
  | release (refs : List ObjectRef) : Step ok d (d.release refs)
  /-- A command is issued. -/
  | issue {c : Command} (hc : ok c) : Step ok d (d.issue c)
  /-- Texels are overwritten. -/
  | write (t : Handle .texture) (level : Nat) (data : Bytes) :
    Step ok d (d.writeTexels t level data).2
  /-- No object changes. -/
  | control {d' : Device} (timing : d'.timing = d.timing) (lastId : d'.lastId = d.lastId)
    (objects : d'.objects = d.objects) : Step ok d d'

abbrev Works (ok : Command → Prop) : Device → Device → Prop := ReflTransGen (Step ok)

variable {ok : Command → Prop}

theorem Step.evolves (h : d.Step ok d') : d.Evolves d' := by
  cases h with
  | create content => exact Evolves.create d
  | release refs => exact Evolves.release d refs
  | issue hc => exact Evolves.issue d _
  | write t level data => exact evolves_writeTexels d t level data
  | control timing lastId objects => exact Evolves.of_eq objects lastId

theorem Step.timing_eq (h : d.Step ok d') : d'.timing = d.timing := by
  cases h with
  | create content =>
    rename_i k
    rcases hrun : Device.create k content d with ⟨e | x, d'⟩
    · obtain rfl := create_eq_error hrun
      rfl
    · obtain ⟨_, _, -, -, rfl⟩ := create_eq_ok hrun
      rfl
  | release refs => rfl
  | issue hc => exact timing_issue d _
  | write t level data =>
    rw [writeTexels]
    split
    · split <;> rfl
    · rfl
  | control timing lastId objects => exact timing

namespace Works

theorem evolves (h : d.Works ok d') : d.Evolves d' := by
  induction h with
  | refl => exact Evolves.refl d
  | tail _ hlast ih => exact ih.trans hlast.evolves

theorem timing_eq (h : d.Works ok d') : d'.timing = d.timing := by
  induction h with
  | refl => rfl
  | tail _ hlast ih => exact hlast.timing_eq.trans ih

/-- **What work makes of a content.** If commands and writes relate what is stored for a handle
before to what is stored after, then so does all work that the object survives. -/
theorem get? {R : kind.Content → kind.Content → Prop} [Std.Refl R] [IsTrans kind.Content R]
    {x : Handle kind} {c' : kind.Content} (h : d.Works ok d')
    (hissue : ∀ {d : Device} {c : Command}, ok c → ∀ {a b}, d.get? x = some a →
      (d.issue c).get? x = some b → R a b)
    (hwrite : ∀ {d : Device} {t level data a b}, d.get? x = some a →
      (d.writeTexels t level data).2.get? x = some b → R a b)
    (hid : x.id ≤ d.lastId) (hget : d'.get? x = some c') : ∃ c, d.get? x = some c ∧ R c c' := by
  induction h generalizing c' with
  | refl => exact ⟨c', hget, refl_of R c'⟩
  | @tail d₁ d₂ hbefore hlast ih =>
    have hid₁ : x.id ≤ d₁.lastId := hid.trans (Works.evolves hbefore).lastId_le
    obtain ⟨c₁, hget₁, -⟩ : ∃ c₁, d₁.get? x = some c₁ ∧ ObjectKind.Alike c₁ c' :=
      hlast.evolves.get? hid₁ hget
    have hstep : R c₁ c' := by
      have hsame {d₂ : Device} (heq : d₂.get? x = d₁.get? x) (hget : d₂.get? x = some c') :
          R c₁ c' := by
        rw [heq, hget₁] at hget
        cases hget
        exact refl_of R c'
      cases hlast with
      | create content => exact hsame (d₁.get?_create content hid₁) hget
      | release refs =>
        rw [get?_release] at hget
        split at hget
        · cases hget
        · exact hsame rfl hget
      | issue hc => exact hissue hc hget₁ hget
      | write t level data => exact hwrite hget₁ hget
      | control timing lastId objects =>
        exact hsame (show d₂.objects.get? x = d₁.objects.get? x by rw [objects]) hget
    obtain ⟨c, hc, hR⟩ := ih hget₁
    exact ⟨c, hc, trans_of R hR hstep⟩

/-- Work that issues no command on an object leaves its content alone, unless it is a texture. -/
theorem get?_of_ne {x : Handle kind} {c' : kind.Content} (h : d.Works ok d')
    (hkind : kind ≠ .texture)
    (hok : ∀ c, ok c → ∀ d : Device, c.touched? d ≠ some x.ref) (hid : x.id ≤ d.lastId)
    (hget : d'.get? x = some c') : d.get? x = some c' := by
  obtain ⟨c, hc, rfl⟩ : ∃ c, d.get? x = some c ∧ c = c' := by
    refine Works.get? (R := Eq) h (fun hc a b ha hb ↦ ?_) (fun ha hb ↦ ?_) hid hget
    · rw [get?_issue_of_ne (hok _ hc _), ha] at hb
      exact Option.some.inj hb
    · have hne {t : Handle .texture} : t.ref ≠ x.ref :=
        fun heq ↦ hkind (congrArg ObjectRef.kind heq).symm
      rw [get?_writeTexels_of_ne hne, ha] at hb
      exact Option.some.inj hb
  exact hc

theorem release (d : Device) (refs : List ObjectRef) : d.Works ok (d.release refs) :=
  ReflTransGen.single (.release refs)

theorem issueAll (d : Device) {cs : List Command} (h : ∀ c ∈ cs, ok c) :
    d.Works ok (d.issueAll cs) := by
  induction cs generalizing d with
  | nil => exact ReflTransGen.refl
  | cons c cs ih =>
    exact ReflTransGen.head (.issue (h c List.mem_cons_self))
      (ih (d.issue c) fun c' hc' ↦ h c' (List.mem_cons_of_mem c hc'))

instance : Std.Refl (Works ok) := ⟨fun _ ↦ ReflTransGen.refl⟩

instance : IsTrans Device (Works ok) := ⟨fun _ _ _ ↦ ReflTransGen.trans⟩

theorem housekeeping : Housekeeping (Works ok) :=
  ⟨fun content _ ↦ ReflTransGen.single (.create content), release⟩

end Works

end Device

open Device (Works Housekeeping)

/-! ## The work of activation -/

theorem works_materialize {ok : Command → Prop} (index : Nat) (table : List TableTexture) :
    Steady (Works ok) (materialize index table) :=
  steady_materialize Works.housekeeping index table

theorem Assets.Builds.works {a a' : Assets} (h : a.Builds a') :
    a.device.Works Command.isOpening a'.device :=
  h.device Works.housekeeping fun _ hc _ ↦ ReflTransGen.single (.issue hc)

theorem DepthAlias.works_point {ok : Command → Prop} (a : DepthAlias)
    (texture : Option (Handle .texture)) (d : Device) : d.Works ok (a.point texture d).2 :=
  a.device_point Works.housekeeping texture d

/-! ## The work of operations -/

namespace Engine

variable {ok : Command → Prop} (e : Engine)

theorem works_activate (index : Nat) :
    e.device.Works Command.isOpening (e.activate index).2.device :=
  e.device_activate Works.housekeeping index fun _ hc _ ↦ ReflTransGen.single (.issue hc)

theorem works_load (m : EffectModule) :
    e.device.Works Command.isOpening (e.load m).2.device :=
  e.device_load Works.housekeeping m fun _ hc _ ↦ ReflTransGen.single (.issue hc)

theorem works_reload (index : Nat) :
    e.device.Works Command.isOpening (e.reload index).2.device := by
  rcases e.reload_cases index with ⟨-, hrun⟩ | ⟨effect, -, hrun⟩
  · rw [hrun]
  · rw [hrun]
    exact (Works.release e.device _).trans (works_activate
      { e.deactivate index with
        textures := registerTextures index effect.module.textures (e.deactivate index).textures }
      index)

theorem works_unload (index : Nat) : e.device.Works ok (e.unload index).2.device := by
  rcases e.unload_cases index with ⟨-, hrun⟩ | ⟨effect, -, hrun⟩
  · rw [hrun]
  · rw [hrun]
    exact ReflTransGen.head (.release _) (Works.release _ _)

theorem works_reset : e.device.Works ok e.reset.device :=
  e.device_reset Works.housekeeping

theorem works_init (s : Swapchain) : e.device.Works ok (e.init s).2.device :=
  e.device_init Works.housekeeping s

theorem works_upload (name : String) (pixels : Bytes)
    (hok : ∀ o data rowPitch, ∀ c ∈ e.uploadCommands o data rowPitch, ok c) :
    e.device.Works ok (e.upload name pixels).2.device := by
  rcases e.upload_cases name pixels with ⟨cause, hrun⟩ | ⟨t, o, data, rowPitch, -, -, hrun⟩
  · rw [hrun]
  · rw [hrun]
    exact Works.issueAll _ (hok o data rowPitch)

theorem works_present (tracker : DepthTracker) :
    e.device.Works (fun _ ↦ True) (e.present tracker).device := by
  rcases hb : e.backbuffer with _ | b
  · rw [present, hb]
  · obtain ⟨techniques, cs, -, -, hpresent⟩ := present_eq hb tracker
    rw [hpresent]
    exact (e.depth.works_point _ e.device).trans (Works.issueAll _ fun _ _ ↦ trivial)

end Engine

/-! ## The work of events -/

/-- The commands that an event may issue. -/
def Event.issues : Event → Command → Prop
  | .load _, c | .reload _, c => c.isOpening
  | .upload .., c => ∃ o data rowPitch, ∃ e : Engine, c ∈ e.uploadCommands o data rowPitch
  | .present _, _ => True
  | .issue c, c' => c' = c
  | _, _ => False

/-- Only a frame, or the host itself, issues commands that change anything but textures. -/
theorem Event.kind_of_issues {event : Event} (hpresent : ∀ tracker, event ≠ .present tracker)
    {c : Command} (hc : event.issues c) :
    event = .issue c ∨ ∀ (d : Device) r, c.touched? d = some r → r.kind = .texture := by
  cases event with
  | load | reload =>
    obtain ⟨view, rfl⟩ := hc
    refine Or.inr fun d r hr ↦ ?_
    obtain ⟨t, -, rfl⟩ := Option.map_eq_some_iff.mp hr
    rfl
  | upload =>
    obtain ⟨o, data, rowPitch, e, hmem⟩ := hc
    refine Or.inr fun d r hr ↦ ?_
    rw [Engine.uploadCommands, List.mem_cons] at hmem
    rcases hmem with rfl | hmem
    · cases hr
      rfl
    · split at hmem
      · rw [List.mem_singleton] at hmem
        subst hmem
        obtain ⟨t, -, rfl⟩ := Option.map_eq_some_iff.mp hr
        rfl
      · cases hmem
  | issue c' =>
    obtain rfl : c = c' := hc
    exact Or.inl rfl
  | present tracker => exact absurd rfl (hpresent tracker)
  | _ => cases hc

/-- **Every event does work**, with the commands that it may issue. -/
theorem Session.works_step (s : Session) (event : Event) :
    s.device.Works event.issues (s.step event).device := by
  cases event with
  | init swapchain => exact s.engine.works_init swapchain
  | reset => exact s.engine.works_reset
  | load m => exact s.engine.works_load m
  | reload index => exact s.engine.works_reload index
  | unload index => exact s.engine.works_unload index
  | unloadAll => exact Works.release _ _
  | upload name pixels =>
    exact s.engine.works_upload name pixels fun o data rowPitch c hc ↦
      ⟨o, data, rowPitch, s.engine, hc⟩
  | writeUniforms index offset data =>
    change s.device.Works _ (s.engine.writeUniforms index offset data).2.device
    rcases s.engine.writeUniforms_cases index offset data with
      ⟨cause, hrun, -⟩ | ⟨effect, -, -, hrun⟩ <;> rw [hrun] <;> exact ReflTransGen.refl
  | setEnabled name enabled => exact ReflTransGen.refl
  | overrideDepth texture => exact ReflTransGen.refl
  | configure config => exact ReflTransGen.refl
  | present tracker => exact s.engine.works_present tracker
  | create kind content =>
    change s.device.Works _ (s.create kind content).engine.device
    rw [engine_create]
    exact Works.housekeeping.create content s.device
  | release refs => exact Works.release _ refs
  | issue c => exact ReflTransGen.single (.issue rfl)
  | write t level data => exact ReflTransGen.single (.write t level data)
  | failAfter kind after => exact ReflTransGen.single (.control rfl rfl rfl)
  | markInterrupted => exact ReflTransGen.single (.control rfl rfl rfl)
  | advanceFrame => exact ReflTransGen.single (.control rfl rfl rfl)
  | takeLog => exact ReflTransGen.single (.control rfl rfl rfl)

end EffectChain
