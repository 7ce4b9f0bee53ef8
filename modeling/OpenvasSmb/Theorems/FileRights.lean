import OpenvasSmb.Wmi.FileRights

/-!
# The four file functions over all outcomes

Each function is meant to return NULL without a query when the file cannot be opened, to answer
for the opened file when the open and the query succeed (`fileAnswer`), and to leave alone what
the descriptor does not have.

A failed open is -1 and not 0, so a query for file id 0xFFFF goes out; file id 0 is taken for a
failure; and a descriptor without a DACL makes `smb_file_TrusteeRights` read through NULL. In all
other cases the functions do what they should (`file_functions_correct_iff`).
-/

namespace OpenvasSmb.Wmi

open Security Kit

inductive FileFunction where
  | sddl
  | ownerSid
  | groupSid
  | trusteeRights
deriving DecidableEq

def FileFunction.call : FileFunction → PullDescriptor → Option FileServer →
    Option (List Char) → FileCall
  | .sddl => smbFileSDDL
  | .ownerSid => smbFileOwnerSID
  | .groupSid => smbFileGroupSID
  | .trusteeRights => smbFileTrusteeRights

def sidText : Option DomSid → List Char
  | some sid => sid.text
  | none => "(NULL SID)".toList

/-- What is to be answered for a descriptor: its SDDL text, owner or group, or the trustees and
rights of the DACL. -/
def fileAnswer (sd : SecurityDescriptor) : FileFunction → FileAnswer
  | .sddl =>
    match sddlEncode sd none with
    | .ok text => .text text
    | .error _ => .null
  | .ownerSid => .text (sidText sd.ownerSid)
  | .groupSid => .text (sidText sd.groupSid)
  | .trusteeRights =>
    .text (((sd.dacl.map SecurityAcl.aces).getD []).flatMap fun ace =>
      ace.trustee.text ++ ':' :: (hexPad 8 ace.accessMask.toNat ++ [',']))

/-- The descriptor that the server returns for an open file, if the query succeeds. -/
def FileServer.descriptor (server : FileServer) (pull : PullDescriptor) (fnum : UInt16) :
    Option SecurityDescriptor :=
  let r := smbRawQuerySecdescRecv pull (server.query fnum)
  if r.1.isOk then r.2 else none

/-- What a call is meant to do. -/
structure FileCallCorrect (pull : PullDescriptor) (server : FileServer) (filename : List Char)
    (f : FileFunction) (call : FileCall) : Prop where
  notOpened : (server.smbRawOpen filename).1.isOk = false → call = ⟨[], .null⟩
  answered : (server.smbRawOpen filename).1.isOk = true →
    ∀ sd, server.descriptor pull (server.smbRawOpen filename).2 = some sd →
      call = ⟨[(server.smbRawOpen filename).2], fileAnswer sd f⟩
  safe : call.answer ≠ .fault

/-- The file is opened, its id is not 0 unless the query would fail, and a descriptor has a DACL
when that is asked for. -/
def FileOutcomeGood (pull : PullDescriptor) (server : FileServer) (filename : List Char)
    (f : FileFunction) : Prop :=
  (server.smbRawOpen filename).1.isOk = true ∧
    ∀ sd, server.descriptor pull (server.smbRawOpen filename).2 = some sd →
      (server.smbRawOpen filename).2 ≠ 0 ∧ (f = .trusteeRights → sd.dacl ≠ none)

/-! ## The answers -/

theorem appendTrustees_eq : ∀ (aces : List SecurityAce) (sids : List Char),
    appendTrustees sids aces = sids ++ aces.flatMap trusteeText := by
  intro aces
  induction aces with
  | nil => intro sids; simp [appendTrustees]
  | cons ace aces ih =>
    intro sids
    rw [appendTrustees, ih, List.flatMap_cons, List.append_assoc]

/-- Without a domain no SID is looked at beyond its text, so nothing is read that is not
there. -/
theorem sddlEncodeSid_ne_fault (sid : DomSid) : sddlEncodeSid none sid ≠ .error .fault := by
  rw [sddlEncodeSid]
  split
  · intro h; cases h
  · intro h; cases h

theorem sddlEncodeAce_ne_fault (ace : SecurityAce) : sddlEncodeAce none ace ≠ .error .fault := by
  intro h
  rw [sddlEncodeAce] at h
  split at h
  · cases h
  · cases h
  · rename_i htrustee
    cases h
    exact sddlEncodeSid_ne_fault _ htrustee
  · cases h

theorem encodeAces_ne_fault : ∀ aces : List SecurityAce, encodeAces none aces ≠ .error .fault := by
  intro aces
  induction aces with
  | nil => intro h; cases h
  | cons ace aces ih =>
    intro h
    rw [encodeAces] at h
    split at h
    · rename_i hace
      cases h
      exact sddlEncodeAce_ne_fault _ hace
    · split at h
      · rename_i haces
        cases h
        exact ih haces
      · cases h

theorem sidPart_ne_fault (letter : Char) (sid : Option DomSid) :
    sidPart none letter sid ≠ .error .fault := by
  intro h
  cases sid with
  | none => cases h
  | some sid =>
    rw [sidPart] at h
    split at h
    · rename_i hsid
      cases h
      exact sddlEncodeSid_ne_fault _ hsid
    · cases h

theorem aclPart_ne_fault (letter : Char) (present : Bool) (flags : BitVec 32)
    (acl : Option SecurityAcl) : aclPart none letter present flags acl ≠ .error .fault := by
  have hacl : ∀ acl, sddlEncodeAcl none acl flags ≠ .error .fault := by
    intro acl h
    rw [sddlEncodeAcl] at h
    split at h
    · cases h
    · split at h
      · rename_i haces
        cases h
        exact encodeAces_ne_fault _ haces
      · cases h
  intro h
  cases acl with
  | none => cases h
  | some acl =>
    rw [aclPart] at h
    split at h
    · split at h
      · rename_i henc
        cases h
        exact hacl _ henc
      · cases h
    · cases h

variable (sd : SecurityDescriptor)

theorem sddlEncode_ne_fault : sddlEncode sd none ≠ .error .fault := by
  intro h
  rw [sddlEncode] at h
  iterate 2
    split at h
    · rename_i hpart
      cases h
      exact sidPart_ne_fault _ _ hpart
  iterate 2
    split at h
    · rename_i hpart
      cases h
      exact aclPart_ne_fault _ _ _ _ hpart
  cases h

theorem sddlAnswer_eq : sddlAnswer sd = fileAnswer sd .sddl := by
  rw [sddlAnswer, fileAnswer]
  cases h : sddlEncode sd none with
  | ok text => rfl
  | error e =>
    cases e with
    | null => rfl
    | fault => exact absurd h (sddlEncode_ne_fault sd)

theorem domSidString_eq (sid : Option DomSid) : domSidString sid = sidText sid := by
  cases sid with
  | none => rfl
  | some sid => exact domSidString_some sid

/-! ## A call -/

def FileFunction.last : FileFunction → SecurityDescriptor → FileAnswer
  | .sddl, sd => sddlAnswer sd
  | .ownerSid, sd => .text (domSidString sd.ownerSid)
  | .groupSid, sd => .text (domSidString sd.groupSid)
  | .trusteeRights, sd =>
    match sd.dacl with
    | some dacl => .text (appendTrustees [] dacl.aces)
    | none => .fault

variable (pull : PullDescriptor) (f : FileFunction)

theorem FileFunction.call_eq : f.call = smbFile f.last := by
  cases f <;> rfl

/-- The last step gives the answer, unless it lacks the DACL it needs. -/
theorem FileFunction.last_eq (sd : SecurityDescriptor) :
    f.last sd = if f = .trusteeRights ∧ sd.dacl = none then .fault else fileAnswer sd f := by
  cases f with
  | sddl => exact sddlAnswer_eq sd
  | ownerSid | groupSid => exact congrArg FileAnswer.text (domSidString_eq _)
  | trusteeRights =>
    rw [last, fileAnswer]
    cases sd.dacl with
    | none => rfl
    | some dacl =>
      have htext : trusteeText = fun ace =>
          ace.trustee.text ++ ':' :: (hexPad 8 ace.accessMask.toNat ++ [',']) := by
        funext ace
        rw [trusteeText, domSidString_some]
      simp [appendTrustees_eq, htext]

theorem fileAnswer_ne_fault : fileAnswer sd f ≠ .fault := by
  cases f with
  | sddl =>
    rw [fileAnswer]
    split
    · intro h; cases h
    · intro h; cases h
  | ownerSid | groupSid | trusteeRights => intro h; cases h

theorem isSome_of_queried {pull : PullDescriptor} {nt : NttransReply}
    (h : (smbRawQuerySecdescRecv pull nt).1.isOk = true) :
    (smbRawQuerySecdescRecv pull nt).2.isSome = true := by
  rw [smbRawQuerySecdescRecv] at h ⊢
  split at h
  · rename_i hbad
    rw [hbad] at h
    cases h
  · split at h
    · cases h
    · rename_i hstatus hlength
      rw [if_neg hstatus, if_neg hlength]
      rfl

theorem call_of_not_opened {server : FileServer} {filename : List Char} (f : FileFunction)
    (h : (server.smbRawOpen filename).1.isOk = false) :
    (f.call pull (some server) (some filename)).queries = [0xFFFF] := by
  have hfnum : smbcliNtCreateFull server filename = -1 := by simp [smbcliNtCreateFull, h]
  rw [f.call_eq, smbFile]
  simp only [hfnum]
  split
  · rename_i hzero
    cases hzero
  · split
    · rfl
    · split <;> rfl

theorem call_of_opened {server : FileServer} {filename : List Char} (f : FileFunction)
    (h : (server.smbRawOpen filename).1.isOk = true) :
    f.call pull (some server) (some filename) =
      if (server.smbRawOpen filename).2 = 0 then ⟨[], .null⟩
      else ⟨[(server.smbRawOpen filename).2],
        ((server.descriptor pull (server.smbRawOpen filename).2).map f.last).getD .null⟩ := by
  generalize hid : (server.smbRawOpen filename).2 = fnum
  have hfnum : smbcliNtCreateFull server filename = (fnum.toNat : Int) := by
    simp [smbcliNtCreateFull, h, hid]
  have hzero : ((fnum.toNat : Int) = 0) ↔ fnum = 0 := by
    rw [← UInt16.toNat_inj]
    simp
  have hasked : UInt16.ofNat ((fnum.toNat : Int) % 2 ^ 16).toNat = fnum := by
    have hlt := fnum.toNat_lt
    have hmod : ((fnum.toNat : Int) % 2 ^ 16).toNat = fnum.toNat := by omega
    rw [hmod, UInt16.ofNat_toNat]
  rw [f.call_eq, smbFile]
  simp only [hfnum, hzero, hasked]
  by_cases hid0 : fnum = 0
  · rw [if_pos hid0, if_pos hid0]
  · rw [if_neg hid0, if_neg hid0, FileServer.descriptor]
    cases hstatus : (smbRawQuerySecdescRecv pull (server.query fnum)).1.isOk with
    | false => rfl
    | true =>
      obtain ⟨sd, hsd⟩ := Option.isSome_iff_exists.mp (isSome_of_queried hstatus)
      simp only [hsd]
      rfl

/-- **The file functions over all outcomes.** A call returns NULL without a query when the open
failed, answers for the opened file otherwise, and never reads through NULL, exactly for the good
outcomes. -/
theorem file_functions_correct_iff (server : FileServer) (filename : List Char) (f : FileFunction) :
    FileCallCorrect pull server filename f (f.call pull (some server) (some filename)) ↔
      FileOutcomeGood pull server filename f := by
  cases hopen : (server.smbRawOpen filename).1.isOk with
  | false =>
    refine iff_of_false (fun hcorrect => ?_) fun hgood => ?_
    · have hqueries := call_of_not_opened pull f hopen
      rw [hcorrect.notOpened hopen] at hqueries
      cases hqueries
    · rw [hgood.1] at hopen
      cases hopen
  | true =>
    have hcall := call_of_opened pull f hopen
    constructor
    · intro hcorrect
      refine ⟨hopen, fun sd hsd => ?_⟩
      have hanswered := hcorrect.answered hopen sd hsd
      have hsafe := hcorrect.safe
      rw [hcall] at hanswered hsafe
      by_cases hzero : (server.smbRawOpen filename).2 = 0
      · rw [if_pos hzero] at hanswered
        cases hanswered
      · refine ⟨hzero, fun hf hdacl => hsafe ?_⟩
        rw [if_neg hzero, hsd]
        show f.last sd = .fault
        rw [f.last_eq, if_pos ⟨hf, hdacl⟩]
    · rintro ⟨-, hgood⟩
      have hlast : ∀ sd, server.descriptor pull (server.smbRawOpen filename).2 = some sd →
          f.last sd = fileAnswer sd f := by
        intro sd hsd
        rw [f.last_eq, if_neg]
        rintro ⟨hf, hdacl⟩
        exact (hgood sd hsd).2 hf hdacl
      refine ⟨fun hfailed => ?_, fun _ sd hsd => ?_, ?_⟩
      · rw [hopen] at hfailed
        cases hfailed
      · rw [hcall, if_neg (hgood sd hsd).1, hsd]
        show (⟨_, f.last sd⟩ : FileCall) = _
        rw [hlast sd hsd]
      · rw [hcall]
        split
        · intro h; cases h
        · cases hsd : server.descriptor pull (server.smbRawOpen filename).2 with
          | none => intro h; cases h
          | some sd =>
            show f.last sd ≠ .fault
            rw [hlast sd hsd]
            exact fileAnswer_ne_fault sd f

/-! ## Samples -/

def bareDescriptor : SecurityDescriptor := ⟨1, 0x8000, none, none, none, none⟩

/-- A server that answers every open and every query in the same way. -/
def steadyServer (status : NtStatus) (fnum : UInt16) : FileServer :=
  ⟨fun _ => (status, fnum), fun _ => ⟨.ok, [0, 0, 0, 0], []⟩⟩

/-- A failed open is followed by a query for id 0xFFFF; the file with id 0 is not asked about; and
an absent DACL is read. -/
theorem file_functions_wrong :
    smbFileOwnerSID (fun _ => (.ok, bareDescriptor)) (some (steadyServer .accessDenied 0))
        (some ['f']) = ⟨[0xFFFF], .text "(NULL SID)".toList⟩ ∧
    smbFileSDDL (fun _ => (.ok, bareDescriptor)) (some (steadyServer .ok 0)) (some ['f']) =
      ⟨[], .null⟩ ∧
    smbFileTrusteeRights (fun _ => (.ok, bareDescriptor)) (some (steadyServer .ok 1))
        (some ['f']) = ⟨[1], .fault⟩ :=
  ⟨by decide, by decide, by decide⟩

end OpenvasSmb.Wmi
