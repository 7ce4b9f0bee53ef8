import OpenvasSmb.Util.Status
import OpenvasSmb.Security.Sddl
import OpenvasSmb.Kit.Bytes

/-!
# Who may do what with a file (`wmi/winsmb.c`)

Four functions open a file on the server, ask for its security descriptor and turn a part
of that into text. They differ only in the last step.

`smbcli_nt_create_full` returns the 16-bit id of the open file as an `int`, or -1; the
callers take 0 for its failure. The reply of the server to a query is the reply of an
NT transaction; the generated `ndr_pull_security_descriptor` is a parameter.
-/

namespace OpenvasSmb.Wmi

open Security Kit

/-- What an NT transaction brings back. -/
structure NttransReply where
  status : NtStatus
  params : Bytes
  data : Bytes

/-- The server behind a handle: how it answers an open, and a query for an open file. -/
structure FileServer where
  smbRawOpen : List Char → NtStatus × UInt16
  query : UInt16 → NttransReply

/-- `ndr_pull_security_descriptor`: its status, and the descriptor it fills. -/
abbrev PullDescriptor := Bytes → NtStatus × SecurityDescriptor

/-- What one of the functions returns; NULL may also be read through. -/
inductive FileAnswer where
  | null
  | text (t : List Char)
  | fault
deriving DecidableEq

/-- A call: the file ids that were asked about, and the answer. -/
structure FileCall where
  queries : List UInt16
  answer : FileAnswer
deriving DecidableEq

def smbcliNtCreateFull (server : FileServer) (fname : List Char) : Int :=
  let (status, fnum) := server.smbRawOpen fname
  if status.isOk then fnum.toNat else -1

def smbRawQuerySecdescRecv (pull : PullDescriptor) (nt : NttransReply) :
    NtStatus × Option SecurityDescriptor :=
  if nt.status.isOk = false then (nt.status, none)
  else if nt.params.length ≠ 4 ∨ nt.data.length < ofLe nt.params then (.invalidParameter, none)
  else
    let (status, sd) := pull (nt.data.take (ofLe nt.params))
    (status, some sd)

/-- What the four functions share. The id goes into a 16-bit field of the query. -/
def smbFile (answer : SecurityDescriptor → FileAnswer) (pull : PullDescriptor)
    (handle : Option FileServer) (filename : Option (List Char)) : FileCall :=
  match handle, filename with
  | some server, some filename =>
    let fnum := smbcliNtCreateFull server filename
    if fnum = 0 then ⟨[], .null⟩
    else
      let asked := UInt16.ofNat (fnum % 2 ^ 16).toNat
      let (status, sd) := smbRawQuerySecdescRecv pull (server.query asked)
      if status.isOk = false then ⟨[asked], .null⟩
      else
        match sd with
        | some sd => ⟨[asked], answer sd⟩
        | none => ⟨[asked], .fault⟩
  | _, _ => ⟨[], .null⟩

/-- The text of a descriptor, without a domain. -/
def sddlAnswer (sd : SecurityDescriptor) : FileAnswer :=
  match sddlEncode sd none with
  | .ok text => .text text
  | .error .null => .null
  | .error .fault => .fault

def smbFileSDDL := smbFile sddlAnswer

def smbFileOwnerSID := smbFile fun sd => .text (domSidString sd.ownerSid)

def smbFileGroupSID := smbFile fun sd => .text (domSidString sd.groupSid)

/-- One trustee and its rights, `%s:%08x,`. -/
def trusteeText (ace : SecurityAce) : List Char :=
  domSidString (some ace.trustee) ++ ':' :: (hexPad 8 ace.accessMask.toNat ++ [','])

/-- The loop of `smb_file_TrusteeRights`. -/
def appendTrustees : List Char → List SecurityAce → List Char
  | sids, [] => sids
  | sids, ace :: aces => appendTrustees (sids ++ trusteeText ace) aces

/-- `smb_file_TrusteeRights`. The DACL is used without asking whether there is one. -/
def smbFileTrusteeRights :=
  smbFile fun sd =>
    match sd.dacl with
    | some dacl => .text (appendTrustees [] dacl.aces)
    | none => .fault

end OpenvasSmb.Wmi
