import HostInventory.Inventory.Basic
import HostInventory.Proofs.Kind.Cpu

/-! What a failure leaves.

A listing may have read half a file when it fails, and a look five files of six. Of the caches and
of the data of an instance nothing has been written by then: a listing puts what it has read in
the place of the last one when all of it makes sense, and a look begins to write when nothing can
fail any more (`Kind.Atomic`). Each kind sees to it on its own, so there is a lemma for the listing
of each kind that has a cache and one for the look of each kind (`KindName.atomic`). -/
namespace HostInventory

open Enumeration FileTree

namespace Enumeration

variable {Env Cache Data : Type}

/-- A listing that fails leaves the cache as it was, and a look that fails the data. -/
structure Kind.Atomic (k : Kind Env Cache Data) : Prop where
  listing : ∀ env cache f left, (k.discover env cache).value = .error (f, left) → left = cache
  look : ∀ env cache i f left, (k.refresh env cache i).value = .ok (.error (f, left)) →
    left = i.data

section Updates
variable {k : Kind Env Cache Data} {env : Env} {e e' : Enumeration Cache Data}

/-- So an update whose listing fails changes nothing. -/
theorem Kind.Atomic.eq_of_update_error (ha : k.Atomic) {refresh : Bool} {f : Failure}
    (h : (e.update k env refresh).value = .ok (.error f, e')) : e' = e := by
  obtain ⟨cache, hd, rfl⟩ := update_error_cases h
  rw [ha.listing env e.cache f cache hd]

theorem Kind.Atomic.update_with_refresh_cases (ha : k.Atomic) {r : Except Failure UpdateReport}
    (h : (e.update k env true).value = .ok (r, e')) :
    (∃ f left, (k.discover env e.cache).value = .error (f, left) ∧ e' = e) ∨
      ∃ listing cache, (k.discover env e.cache).value = .ok (listing, cache) ∧
        e' = (e.reconciled k env cache listing).refreshed k env := by
  obtain ⟨f, left, hd, rfl⟩ | hlisted := Enumeration.update_with_refresh_cases h
  · obtain rfl := ha.listing env e.cache f left hd
    exact .inl ⟨f, e.cache, hd, rfl⟩
  · exact .inr hlisted

end Updates

end Enumeration

/-! ### Listings -/

section Listings
variable {file : Path} {host : Provider} {f : Failure}

theorem Disk.discover_eq_error {ignored : List String} {last left : Disk.Mounts} :
    Disk.discover file ignored host last = .error (f, left) ↔
      readAs (host.read file) Format.MountTable.read = .error f ∧ left = last := by
  rw [Disk.discover, leaving_bind_eq_error]
  exact or_iff_left fun ⟨_, _, h⟩ => nomatch h

theorem Software.discover_eq_error {last left : Software.Snapshot} :
    (Software.discover file host last).value = .error (f, left) ↔
      readAs (host.read file) Format.PackageDatabase.read = .error f ∧ left = last := by
  unfold Software.discover
  cases readAs (host.read file) Format.PackageDatabase.read with
  | error g => simp [eq_comm]
  | ok all => simp

end Listings

/-! ### Looks -/

section Looks
variable {host : Provider} {f : Failure}

theorem Bios.left_of_look {tables : Path} {last left : Bios.Info}
    (h : Bios.look tables host last = .error (f, left)) : left = last := by
  obtain ⟨-, rfl⟩ | ⟨_, -, h⟩ := leaving_bind_eq_error.1 h
  · rfl
  · cases h

theorem Memory.left_of_look {table : Path} {last left : Memory.Info}
    (h : (Memory.look table host last).value = .ok (.error (f, left))) : left = last := by
  unfold Memory.look at h
  cases hr : host.read table with
  | error e =>
    rw [hr] at h
    cases h
    rfl
  | ok text =>
    simp only [hr] at h
    split at h
    · cases h
      rfl
    · split at h <;> cases h

theorem Os.left_of_look {places : Os.Places} {last left : Os.Info}
    (h : (Os.look places host last).value = .ok (.error (f, left))) : left = last := by
  unfold Os.look at h
  cases hr : Os.release? places host with
  | error g =>
    rw [hr] at h
    cases h
    rfl
  | ok release =>
    simp only [hr] at h
    split at h <;> cases h
    rfl

theorem Disk.left_of_look {info left : Disk.Info}
    (h : Disk.look host info = .error (f, left)) : left = info := by
  unfold Disk.look at h
  split at h
  · cases h
  · split at h <;> cases h
    rfl

theorem Network.left_of_look {places : Network.Places} {info left : Network.Info}
    (h : Network.look places host info = .error (f, left)) : left = info := by
  obtain ⟨-, rfl⟩ | ⟨flags, -, h⟩ := leaving_bind_eq_error.1 h
  · rfl
  · obtain ⟨-, rfl⟩ | ⟨row, -, h⟩ := leaving_bind_eq_error.1 h
    · rfl
    · cases h

theorem Software.left_of_look {snapshot : Software.Snapshot} {d left : Software.Data}
    (h : Software.look snapshot d = .error (f, left)) : left = d := by
  unfold Software.look at h
  split at h <;> cases h
  rfl

end Looks

/-- Every kind leaves what it has not replaced. -/
theorem KindName.atomic (s : Settings) (k : KindName) : (k.kind s).Atomic where
  listing := fun host cache f left h => by
    cases k
    case disk => exact (Disk.discover_eq_error.1 h).2
    case software => exact (Software.discover_eq_error.1 h).2
    all_goals rfl
  look := fun host cache i f left h => by
    cases k
    case cpu => exact (Cpu.look_eq_failed.1 h).2
    case memory => exact Memory.left_of_look h
    case disk => exact Disk.left_of_look (Except.ok.inj h)
    case network => exact Network.left_of_look (Except.ok.inj h)
    case os => exact Os.left_of_look h
    case bios => exact Bios.left_of_look (Except.ok.inj h)
    case software => exact Software.left_of_look (Except.ok.inj h)

end HostInventory
