import HostInventory.Kind.Bios
import HostInventory.Kind.Disk
import HostInventory.Kind.Network
import HostInventory.Kind.Os
import HostInventory.Kind.Software
import HostInventory.Proofs.Enumeration.Update

/-! Kinds whose updates always return.

Five of the seven kinds form no sum of what they read: whatever is in the files they look at,
a look at an instance succeeds or fails, and does not end in a fault. Each builds its
instances under the identity asked for; a disk's is the mount point it was looked up by. -/
namespace HostInventory

open Enumeration FileTree

theorem Os.look_returns (places : Os.Places) (host : Provider) (last : Os.Info) :
    ∃ r, (Os.look places host last).value = .ok r := by
  unfold Os.look
  split
  · exact ⟨_, rfl⟩
  · dsimp only
    split
    · exact ⟨_, rfl⟩
    · exact ⟨_, rfl⟩

theorem Os.kind_regular (proc etc usr : Path) : (Os.kind proc etc usr).Regular where
  truthful := .of_discover fun _ _ => rfl
  faultless := fun host _ i => Os.look_returns (Os.Places.of proc etc usr) host i.data

theorem Bios.kind_regular (sys : Path) : (Bios.kind sys).Regular where
  truthful := .of_discover fun _ _ => rfl
  faultless := fun _ _ _ => ⟨_, rfl⟩

/-- A mount is found under its own mount point. -/
theorem Disk.subject_of_instantiate {mounts : Disk.Mounts} {id : Identity}
    {i : Instance Disk.Info} (h : Disk.instantiate mounts id = .ok i) : i.subject = .named id := by
  unfold Disk.instantiate at h
  cases hm : mounts.at? id.text with
  | none =>
    rw [hm] at h
    cases h
  | some m =>
    rw [hm] at h
    cases h
    have hpoint : m.point = id.text := by simpa using List.find?_some hm
    show Subject.named ⟨m.point⟩ = .named id
    rw [hpoint]

theorem Disk.kind_regular (proc : Path) (ignored : List String) (policy : RemovalPolicy) :
    (Disk.kind proc ignored policy).Regular where
  truthful := .of_instantiate fun _ _ _ _ hi => Disk.subject_of_instantiate hi
  faultless := fun _ _ _ => ⟨_, rfl⟩

theorem Network.kind_regular (proc sys : Path) (all : Bool) (policy : RemovalPolicy) :
    (Network.kind proc sys all policy).Regular where
  truthful := .of_instantiate fun _ _ _ _ hi => by
    cases hi
    rfl
  faultless := fun _ _ _ => ⟨_, rfl⟩

theorem Software.kind_regular (database : Path) (policy : RemovalPolicy) :
    (Software.kind database policy).Regular where
  truthful := .of_instantiate fun _ _ _ _ hi => by
    cases hi
    rfl
  faultless := fun _ _ _ => ⟨_, rfl⟩

end HostInventory
