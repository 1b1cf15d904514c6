import EffectChain.Device.Basic

/-!
# Creation that leaves nothing behind

Most things are made of several device objects, and the creation of any of them can fail. What was
created before the failure is then released again: `keeping refs rest` runs `rest`, and if that
fails releases what is referred to, so nested uses release all that was created. The state may hold
more than the device (`HasDevice`), and the failure may be of any type.
-/

namespace EffectChain

/-- States that hold a device. -/
class HasDevice (σ : Type) where
  /-- The device. -/
  device : σ → Device
  /-- The state with its device changed. -/
  mapDevice : (Device → Device) → σ → σ

instance : HasDevice Device where
  device d := d
  mapDevice f d := f d

/-- Runs an action, and releases the given objects if it fails. -/
def keeping {σ ε α : Type} [HasDevice σ] (refs : List ObjectRef)
    (rest : ExceptT ε (StateM σ) α) : ExceptT ε (StateM σ) α :=
  ExceptT.mk fun s ↦
    match rest s with
    | (.ok a, s) => (.ok a, s)
    | (.error e, s) => (.error e, HasDevice.mapDevice (fun d ↦ d.release refs) s)

namespace DeviceM

/-- The outcome of an action on a device, and the device after it. -/
def on {α : Type} (action : DeviceM α) (d : Device) : Except DeviceError α × Device := action d

/-- The action with its error given a context. -/
def named {ε α : Type} (wrap : DeviceError → ε) (action : DeviceM α) :
    ExceptT ε (StateM Device) α :=
  ExceptT.mk fun d ↦
    match action d with
    | (.ok a, d) => (.ok a, d)
    | (.error e, d) => (.error (wrap e), d)

end DeviceM

end EffectChain
