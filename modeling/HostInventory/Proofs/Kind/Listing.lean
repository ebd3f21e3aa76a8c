import HostInventory.FileTree.Tree
import HostInventory.Inventory.Basic
import HostInventory.Proofs.Enumeration.Run
import HostInventory.Proofs.Kind.Atomic

/-! Listings that fail.

Each kind is listed from one file or directory, or from none. A listing fails when that cannot
be read or when anything in it makes no sense, however far down (`KindName.ListingFails`), and
what was read above that is not kept. An update then ends with the failure before anything has
been touched, the caches of the kind and the whole included, and a run goes on as if the update
had not been tried (`KindName.failed_listing_changes_nothing`). -/
namespace HostInventory

open Enumeration FileTree

namespace Enumeration

variable {Env Cache Data : Type} {e : Enumeration Cache Data} {k : Kind Env Cache Data} {env : Env}
  {f : Failure} (hp : e.phase = .initialized)
  (hd : (k.discover env e.cache).value = .error (f, e.cache))
include hp hd

/-- An update whose listing fails asks for nothing else. -/
theorem update_calls_of_error (refresh : Bool) : (e.update k env refresh).calls = [.discover] := by
  obtain ⟨hv, hc⟩ := updateEnumeration_of_error hp hd
  simp only [update, require_eq_ok.2 hp, Outcome.ofExcept_ok, pure_bind,
    Outcome.calls_bind_of_ok hv, hc, Outcome.calls_pure, List.append_nil]

/-- The operations that begin with a listing take in nothing when it fails. -/
theorem apply_of_error {operation : Operation Env Data}
    (hop : operation ∈ [.updateEnumeration env, .update env false, .update env true]) :
    (e.apply ⟨k, operation⟩).value = .ok ([], e) ∧ (e.apply ⟨k, operation⟩).calls = [.discover] := by
  rw [apply_calls]
  simp only [List.mem_cons, List.not_mem_nil, or_false] at hop
  rcases hop with rfl | rfl | rfl
  · obtain ⟨hv, hc⟩ := updateEnumeration_of_error hp hd
    exact ⟨by rw [apply, Outcome.value_bind_of_ok hv]; rfl, hc⟩
  · exact ⟨by rw [apply, Outcome.value_bind_of_ok (update_of_error hp hd false)]; rfl,
      update_calls_of_error hp hd false⟩
  · exact ⟨by rw [apply, Outcome.value_bind_of_ok (update_of_error hp hd true)]; rfl,
      update_calls_of_error hp hd true⟩

end Enumeration

namespace KindName

/-- What a kind is listed from cannot be read, or makes no sense. -/
def ListingFails (s : Settings) (host : Provider) (f : Failure) : KindName → Prop
  | .memory | .os | .bios => False
  | .cpu => readAs (host.read (s.paths.proc / ⟨"stat"⟩)) Format.CpuTicks.read = .error f
  | .disk => readAs (host.read (s.paths.proc / ⟨"mounts"⟩)) Format.MountTable.read = .error f
  | .network => ∃ cause, host.list (s.paths.sys / ⟨"class/net"⟩) = .error cause ∧ f = .io cause
  | .software => readAs (host.read s.paths.packages) Format.PackageDatabase.read = .error f

/-- That is all that a listing can fail by, and then it leaves the cache as it was. -/
theorem discover_eq_error (s : Settings) (host : Provider) (k : KindName) (cache left : k.Cache)
    (f : Failure) :
    ((k.kind s).discover host cache).value = .error (f, left) ↔
      k.ListingFails s host f ∧ left = cache := by
  cases k with
  | memory => exact ⟨nofun, fun h => h.1.elim⟩
  | os => exact ⟨nofun, fun h => h.1.elim⟩
  | bios => exact ⟨nofun, fun h => h.1.elim⟩
  | cpu =>
    show (leaving () (Except.map _ (readAs _ _))).map _ = _ ↔ readAs _ _ = _ ∧ _
    cases readAs (host.read (s.paths.proc / ⟨"stat"⟩)) Format.CpuTicks.read <;> simp [Except.map]
  | disk => exact Disk.discover_eq_error
  | network =>
    show (leaving () (Network.discover _ _ _).value).map _ = _ ↔
      (∃ cause, host.list (s.paths.sys / ⟨"class/net"⟩) = .error cause ∧ f = .io cause) ∧ _
    unfold Network.discover Network.Places.of
    cases host.list (s.paths.sys / ⟨"class/net"⟩) with
    | error cause => simp [Except.map, eq_comm]
    | ok paths => simp [Except.map]
  | software => exact Software.discover_eq_error

/-- **A listing that fails changes nothing.** It leaves the cache as it was, and every operation
that begins with it answers with its failure, asks for nothing else and leaves all that is held
and the whole. So wherever such an operation stands in a run, the run ends as it does without it,
with the same history and the same calls before and after it. -/
theorem failed_listing_changes_nothing {s : Settings} {k : KindName}
    {e : Enumeration k.Cache k.Data} (hp : e.phase = .initialized) (host : Provider) (f : Failure) :
    (∀ left, ((k.kind s).discover host e.cache).value = .error (f, left) ↔
        k.ListingFails s host f ∧ left = e.cache) ∧
      (k.ListingFails s host f →
        (∀ refresh, (e.update (k.kind s) host refresh).value = .ok (.error f, e)) ∧
        (e.updateEnumeration (k.kind s) host).value = .ok (.error f, e) ∧
        ∀ operation ∈ [.updateEnumeration host, .update host false, .update host true],
          (e.apply ⟨k.kind s, operation⟩).calls = [.discover] ∧
          ∀ (start : Enumeration k.Cache k.Data) (before : List (Step Provider k.Cache k.Data))
            (history : List Event), (start.run before).value = .ok (history, e) →
            ∀ after : List (Step Provider k.Cache k.Data),
              (start.run (before ++ ⟨k.kind s, operation⟩ :: after)).value =
                (start.run (before ++ after)).value ∧
              (start.run (before ++ ⟨k.kind s, operation⟩ :: after)).calls =
                (start.run before).calls ++ .discover :: (e.run after).calls ∧
              (start.run (before ++ after)).calls =
                (start.run before).calls ++ (e.run after).calls) := by
  have hiff := fun left => discover_eq_error s host k e.cache left f
  refine ⟨hiff, fun hf => ?_⟩
  have hd := (hiff e.cache).2 ⟨hf, rfl⟩
  refine ⟨update_of_error hp hd, (updateEnumeration_of_error hp hd).1, ?_⟩
  intro operation hop
  obtain ⟨hv, hc⟩ := apply_of_error hp hd hop
  refine ⟨hc, fun start before history hb after => ?_⟩
  have hr : (e.apply ⟨k.kind s, operation⟩).releases = [] := by
    rw [Outcome.releases, hc]
    rfl
  have hskip := run_skip hb hv hr after
  rw [hc] at hskip
  exact hskip

/-- A package is held when the second stanza of the database stops making sense. -/
theorem failed_listing_changes_nothing_malformed :
    let k := KindName.software
    let database (text : String) := (Tree.addFile {} ⟨"/var/lib/dpkg/status"⟩ text).provider
    let broken := database "Package: bash\nStatus: install ok installed\n\nPackage: zsh\nVersion\n"
    let f := Failure.ofFormat (.stanzaLine "Version")
    let before : List (Step Provider k.Cache k.Data) := [⟨k.kind {}, .init⟩,
      ⟨k.kind {}, .update (database "Package: bash\nStatus: install ok installed\n") true⟩]
    ∃ history e, (k.empty.run before).value = .ok (history, e) ∧ e.phase = .initialized ∧
      e.ids = [⟨"bash"⟩] ∧ k.ListingFails {} broken f ∧
      (e.update (k.kind {}) broken true).value = .ok (.error f, e) ∧
      ∀ after : List (Step Provider k.Cache k.Data),
        (k.empty.run (before ++ ⟨k.kind {}, .update broken true⟩ :: after)).value =
          (k.empty.run (before ++ after)).value := by
  intro k database broken f before
  have hread : (k.empty.run before).value.toOption.map (fun x => (x.2.phase, x.2.ids)) =
      some (.initialized, [⟨"bash"⟩]) := by decide +kernel
  have hf : k.ListingFails {} broken f := by
    show readAs _ _ = _
    decide +kernel
  cases hv : (k.empty.run before).value with
  | error fault =>
    rw [hv] at hread
    cases hread
  | ok x =>
    rw [hv] at hread
    obtain ⟨hp, hids⟩ := Prod.mk.inj (Option.some.inj hread)
    obtain ⟨hupdate, -, hskip⟩ := (failed_listing_changes_nothing hp broken f).2 hf
    refine ⟨x.1, x.2, rfl, hp, hids, hf, hupdate true, fun after => ?_⟩
    exact ((hskip (.update broken true) (by simp)).2 k.empty before x.1 hv after).1

end KindName
end HostInventory
