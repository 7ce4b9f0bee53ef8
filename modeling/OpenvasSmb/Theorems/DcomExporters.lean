import OpenvasSmb.Theorems.DcomInterfaces

/-!
# The exporter of an interface

An exporter is registered when an activation is answered, and always gets a `rem_unknown`. But
the `oxid` of an interface pointer is what the server has put into its reference, in this or in
any later reply. `dcom_get_pipe_send` reports an error if no exporter has it. The routines that
call `rem_unknown` do not look: `exporter_present_iff` says that they are safe exactly for the
`oxid` of an activation that was answered.
-/

namespace OpenvasSmb.Dcom

open List

variable (R : Registry) {r : ActivationReply} {ru : RemUnknown} {exporters : List ObjectExporter}

/-- The routines that look for the exporter of an interface. -/
inductive Operation
  | getPipe
  | queryInterface (cRefs : UInt32) (iids : List Guid)
  | release
  | enumRelease (ecod : Option (Option Stdobjref × Option Stdobjref))

def Operation.send (exporters : List ObjectExporter) (d : Stdobjref) : Operation → Option Sent
  | getPipe => dcomGetPipeSend exporters d
  | queryInterface cRefs iids => dcomQueryInterfaceSend exporters d cRefs iids
  | release => dcomReleaseSend exporters d
  | enumRelease ecod => enumWbemClassObjectReleaseSend exporters d ecod

/-- An error is reported, or what is used is that of a registered exporter. -/
def Sent.Registered (exporters : List ObjectExporter) (d : Stdobjref) : Sent → Prop
  | error status => status.isOk = false
  | pipe ox => ox ∈ exporters ∧ ox.oxid = d.oxid
  | call ru _ => ∃ ox ∈ exporters, ox.oxid = d.oxid ∧ ox.remUnknown = some ru

/-! ## The list of exporters -/

theorem objectExporterByOxid_cases (exporters : List ObjectExporter) (oxid : UInt64) :
    (oxid ∉ exporters.map (·.oxid) ∧ objectExporterByOxid exporters oxid = none) ∨
      ∃ ox ∈ exporters, ox.oxid = oxid ∧ objectExporterByOxid exporters oxid = some ox := by
  cases hox : objectExporterByOxid exporters oxid with
  | none =>
    refine .inl ⟨fun h => ?_, rfl⟩
    obtain ⟨ox, hmem, rfl⟩ := mem_map.mp h
    simpa using find?_eq_none.mp hox ox hmem
  | some ox =>
    have hoxid := find?_some hox
    exact .inr ⟨ox, mem_of_find?_eq_some hox, eq_of_beq hoxid, rfl⟩

theorem replaceRemUnknown_oxids (oxid : UInt64) (exporters : List ObjectExporter) :
    (replaceRemUnknown oxid ru exporters).map (·.oxid) = exporters.map (·.oxid) := by
  induction exporters with
  | nil => rfl
  | cons ox exporters ih =>
    rw [replaceRemUnknown]
    split
    · rfl
    · rw [map_cons, map_cons, ih]

theorem replaceRemUnknown_complete (oxid : UInt64) {exporters : List ObjectExporter}
    (h : ∀ ox ∈ exporters, ox.remUnknown.isSome = true) :
    ∀ ox ∈ replaceRemUnknown oxid ru exporters, ox.remUnknown.isSome = true := by
  induction exporters with
  | nil => exact h
  | cons ox exporters ih =>
    obtain ⟨hox, hrest⟩ := forall_mem_cons.mp h
    rw [replaceRemUnknown]
    split
    · exact forall_mem_cons.mpr ⟨rfl, hrest⟩
    · exact forall_mem_cons.mpr ⟨hox, ih hrest⟩

/-- An activation registers its exporter, with a `rem_unknown`. -/
theorem setRemUnknown_registers (oxid oxid' : UInt64) (exporters : List ObjectExporter) :
    (oxid' ∈ (setRemUnknown oxid ru exporters).map (·.oxid) ↔
      oxid' ∈ exporters.map (·.oxid) ∨ oxid = oxid') ∧
    ((∀ ox ∈ exporters, ox.remUnknown.isSome = true) →
      ∀ ox ∈ setRemUnknown oxid ru exporters, ox.remUnknown.isSome = true) := by
  rw [setRemUnknown]
  rcases objectExporterByOxid_cases exporters oxid with ⟨-, heq⟩ | ⟨ox, hmem, rfl, heq⟩
  · rw [heq]
    refine ⟨?_, fun h => forall_mem_cons.mpr ⟨rfl, h⟩⟩
    rw [map_cons, mem_cons, or_comm, eq_comm (a := oxid')]
  · rw [heq]
    refine ⟨?_, replaceRemUnknown_complete ox.oxid⟩
    rw [replaceRemUnknown_oxids, iff_self_or]
    rintro rfl
    exact mem_map_of_mem hmem

/-- **The reachable lists.** Exactly the exporters of answered activations are added, and each has
a `rem_unknown`. -/
theorem activations_registered (replies : List ActivationReply) :
    ∀ {start exporters : List ObjectExporter},
      replies.foldlM (activation R) start = some exporters →
      (∀ oxid, oxid ∈ exporters.map (·.oxid) ↔
        oxid ∈ start.map (·.oxid) ∨ ∃ r ∈ replies, r.Answered ∧ r.oxid = oxid) ∧
      ((∀ ox ∈ start, ox.remUnknown.isSome = true) →
        ∀ ox ∈ exporters, ox.remUnknown.isSome = true) := by
  induction replies with
  | nil =>
    intro start exporters h
    cases h
    simp
  | cons r replies ih =>
    intro start exporters h
    rw [foldlM_cons, Option.bind_eq_bind, Option.bind_eq_some_iff] at h
    obtain ⟨next, hnext, h⟩ := h
    obtain ⟨a, hactivate, rfl⟩ := Option.map_eq_some_iff.mp hnext
    obtain ⟨hoxids, hcomplete⟩ := ih h
    simp only [hoxids, exists_mem_cons_iff, ← or_assoc]
    rcases dcomActivate_cases R hactivate with ⟨hr, -, heq⟩ | ⟨hr, -, ru, -, heq⟩
    · rw [heq] at hcomplete ⊢
      exact ⟨fun oxid => by simp [hr], hcomplete⟩
    · rw [heq] at hcomplete ⊢
      refine ⟨fun oxid => ?_, hcomplete ∘ (setRemUnknown_registers r.oxid 0 start).2⟩
      rw [(setRemUnknown_registers r.oxid oxid start).1, and_iff_right hr]

/-! ## The routines -/

theorem remUnknownSend_iff (hcomplete : ∀ ox ∈ exporters, ox.remUnknown.isSome = true)
    (d : Stdobjref) (call : RemCall) :
    (∃ sent, remUnknownSend exporters d call = some sent ∧ sent.Registered exporters d) ↔
      d.oxid ∈ exporters.map (·.oxid) := by
  rw [remUnknownSend, objectExporterByIp]
  rcases objectExporterByOxid_cases exporters d.oxid with ⟨hnone, heq⟩ | ⟨ox, hmem, hoxid, heq⟩
  · simp [heq, hnone]
  · obtain ⟨ru, hru⟩ := Option.isSome_iff_exists.mp (hcomplete ox hmem)
    refine iff_of_true ⟨.call ru call, by simp [heq, hru], ox, hmem, hoxid, hru⟩ ?_
    exact mem_map.mpr ⟨ox, hmem, hoxid⟩

/-- **Exporters are there.** A routine finds the exporter of an interface, with its `rem_unknown`,
or reports an error, exactly if it is `dcom_get_pipe_send` or the `oxid` is that of an answered
activation. -/
theorem exporter_present_iff (replies : List ActivationReply)
    (h : activations R replies = some exporters) (op : Operation) (d : Stdobjref) :
    (∃ sent, op.send exporters d = some sent ∧ sent.Registered exporters d) ↔
      op = .getPipe ∨ ∃ r ∈ replies, r.Answered ∧ r.oxid = d.oxid := by
  obtain ⟨hoxids, hcomplete⟩ := activations_registered R replies h
  have hcall := remUnknownSend_iff (hcomplete (by simp)) d
  simp only [hoxids, map_nil, not_mem_nil, false_or] at hcall
  cases op with
  | getPipe =>
    refine iff_of_true ?_ (.inl rfl)
    rw [Operation.send, dcomGetPipeSend]
    rcases objectExporterByOxid_cases exporters d.oxid with ⟨-, heq⟩ | ⟨ox, hmem, hoxid, heq⟩
    · exact ⟨.error .notSupported, by rw [heq], isOk_notSupported⟩
    · exact ⟨.pipe ox, by rw [heq], hmem, hoxid⟩
  | queryInterface cRefs iids | release | enumRelease ecod => exact (hcall _).trans (by simp)

/-- An interface of the exporter that its activation has registered is released. -/
theorem exporter_present_activated : ∃ exporters,
    activations sampleRegistry [oneInterface (some ⟨1, .standard ⟨7, 3⟩⟩) .ok] = some exporters ∧
      ∃ sent, Operation.release.send exporters ⟨7, 3⟩ = some sent ∧
        sent.Registered exporters ⟨7, 3⟩ :=
  ⟨_, rfl, (exporter_present_iff sampleRegistry [oneInterface (some ⟨1, .standard ⟨7, 3⟩⟩) .ok] rfl
    .release ⟨7, 3⟩).mpr (.inr ⟨_, mem_cons_self, ⟨rfl, rfl⟩, rfl⟩)⟩

/-- An activation of exporter 7 returns an interface of exporter 8: a release or a query follows
NULL. -/
theorem foreign_oxid_followed : ∃ a,
    dcomActivate sampleRegistry [] (oneInterface (some ⟨1, .standard ⟨8, 3⟩⟩) .ok) = some a ∧
      a.status = .ok ∧ a.interfaces = [some ⟨⟨1, .standard ⟨8, 3⟩⟩, some 1⟩] ∧
      dcomReleaseSend a.exporters ⟨8, 3⟩ = none ∧
      enumWbemClassObjectReleaseSend a.exporters ⟨8, 3⟩ none = none ∧
      dcomQueryInterfaceSend a.exporters ⟨8, 3⟩ 5 [2] = none ∧
      dcomGetPipeSend a.exporters ⟨8, 3⟩ = some (.error .notSupported) :=
  ⟨_, rfl, by decide, by decide, by decide, by decide,
    by decide, by decide⟩

end OpenvasSmb.Dcom
