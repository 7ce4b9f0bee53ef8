import OpenvasSmb.Smb.SetupSteps

/-!
# Extended security

A session setup with extended security goes on until both sides are happy. One status serves for
both: the handler overwrites the status of the reply with that of the mechanism. If the server
asks for more, and the mechanism is done and has no token to send, the setup ends with success.
In every other case a success means that both the last reply and the last update were one.
-/

namespace OpenvasSmb.Smb

open Kit Client Option

variable {E : Type} {m : Mechanism E} {md5 : Bytes → Bytes} {c c' : Client E} {seen : Seen}
  {event : ClientEvent}

/-- The last reply of the server was a success, and so was the last `gensec_update`. -/
def BothHappy (seen : Seen) : Prop :=
  ∀ outcome ∈ seen.outcome, ∀ setup ∈ outcome.setup, setup.level = .spnego →
    outcome.status.isOk = true →
    setup.replies.getLast? = some .ok ∧ setup.updates.getLast? = some .ok

/-- The mechanism does not answer the reply too early. -/
def Received.Patient (m : Mechanism E) (setup : Setup) (e : E) : Received → Prop
  | .completed req => req.id = setup.reqId → ¬Hasty m setup req e
  | .discarded | .oplockBreak _ => True

/-- The mechanism does not answer a reply that asks for more with success and no token. -/
def Patient (md5 : Bytes → Bytes) (m : Mechanism E) (c : Client E) : ClientEvent → Prop
  | .net event =>
    ∀ setup ∈ c.setup, ∀ received ∈
      eventLoopOnce md5 { transport := c.session.transport, serial := c.serial } event,
      received.1.Patient m setup c.session.env
  | .setup _ | .send _ _ | .more _ => True

/-- What the states of a run keep. -/
def Client.Asked (c : Client E) : Prop := ∀ setup ∈ c.setup, setup.Asked

theorem Client.finish_asked (c : Client E) (io : SetupIo) (setup : Option Setup)
    (status : NtStatus) : (c.finish io setup status).2.Asked := by
  intro setup' hmem
  simp [finish] at hmem

theorem client_net_happy {event : NetEvent} (h : c.Asked)
    (hstep : c.step md5 m (.net event) = some (seen, c'))
    (hpatient : Patient md5 m c (.net event)) : c'.Asked ∧ BothHappy seen := by
  obtain ⟨received, t, hevent, ⟨-, rfl, rfl⟩ | ⟨req, rfl, hdeliver⟩⟩ := step_net_cases hstep
  · exact ⟨h, fun outcome hmem => by simp at hmem⟩
  · have hstate := (eventLoopOnce_brings hevent).state
    obtain ⟨rfl, rfl, -⟩ | ⟨setup, progress, s', hsetup, hid, hturn, hnext⟩ :=
      deliver_cases hstate hdeliver
    · exact ⟨h, fun outcome hmem => by simp at hmem⟩
    · obtain ⟨setup', rfl, rfl, rfl⟩ | ⟨setup', status, rfl, rfl, rfl⟩ := hnext
      · -- another round
        refine ⟨fun setup'' hmem => ?_, fun outcome hmem => by simp at hmem⟩
        obtain rfl := some.inj hmem
        exact (hturn.again setup' rfl).asked (h setup hsetup)
      · refine ⟨finish_asked _ _ _ _, ?_⟩
        intro outcome hmem setup'' hmem' hlevel hok
        obtain rfl := some.inj hmem
        obtain rfl := some.inj hmem'
        obtain ⟨-, hlevel₁, hsuccess⟩ := hturn.finished setup' status rfl
        have hhandler := hsuccess hok
        have hserver : req.status = .ok :=
          hhandler.server.resolve_right (hpatient setup hsetup _ hevent hid)
        refine ⟨?_, hhandler.updates (hlevel₁.symm.trans hlevel) (h setup hsetup)⟩
        rw [← hserver]
        exact hhandler.replies

theorem client_step_happy (h : c.Asked) (hstep : (client md5 m).step c event = some (seen, c'))
    (hpatient : Patient md5 m c event) : c'.Asked ∧ BothHappy seen := by
  have hstep : c.step md5 m event = some (seen, c') := hstep
  cases event with
  | net event => exact client_net_happy h hstep hpatient
  | send singleIncrement readbraw =>
    obtain ⟨rfl, rfl⟩ := answer_inj hstep
    exact ⟨h, fun outcome hmem => by simp at hmem⟩
  | more id =>
    rw [step] at hstep
    cases hfind : c.idle.find? (·.id == id) with
    | none => simp [hfind] at hstep
    | some req =>
      rw [hfind] at hstep
      obtain ⟨rfl, rfl⟩ := answer_inj hstep
      exact ⟨h, fun outcome hmem => by simp at hmem⟩
  | setup io =>
    obtain ⟨hnone, -, ⟨-, houtcome, rfl⟩ | ⟨s', -, ⟨status, -, houtcome, rfl⟩ |
      ⟨setup, -, -, hasked, houtcome, rfl⟩⟩⟩ := step_setup_cases hstep
    iterate 2
      refine ⟨finish_asked _ _ _ _, fun outcome hmem setup hmem' => ?_⟩
      obtain rfl := some.inj (houtcome.symm.trans hmem)
      simp at hmem'
    · refine ⟨fun setup' hmem => ?_, fun outcome hmem => ?_⟩
      · obtain rfl := some.inj hmem
        exact hasked
      · simp [houtcome] at hmem

/-- **Both sides are happy.** If the mechanism never ends with nothing to say while the server asks
for more, a setup with extended security succeeds only if the last reply and the last update did. -/
theorem session_setup_both_happy (md5 : Bytes → Bytes) (m : Mechanism E)
    (clientSigning : ClientSigning) (negotiate : Negotiate) (env : E) (events : List ClientEvent)
    (hpatient : (client md5 m).EachStep (fun c event _ _ => Patient md5 m c event)
      (.start clientSigning negotiate env) events) :
    (client md5 m).EachStep (fun _ _ seen _ => BothHappy seen)
      (.start clientSigning negotiate env) events := by
  refine Machine.EachStep.of_inv (I := Client.Asked) (fun _ _ _ _ => client_step_happy) events _ ?_
    hpatient
  exact fun setup hmem => by simp [start] at hmem

/-! ## Samples -/

instance (setup : Setup) (req : Request) (e : E) : Decidable (Hasty m setup req e) :=
  inferInstanceAs (Decidable (∃ reply ∈ smbRawSesssetupRecv req setup, _ ∧ _ ∧ _ ∧ _))

instance (setup : Setup) (e : E) (received : Received) :
    Decidable (received.Patient m setup e) :=
  match received with
  | .completed req => inferInstanceAs (Decidable (req.id = setup.reqId → ¬Hasty m setup req e))
  | .discarded | .oplockBreak _ => .isTrue trivial

instance (c : Client E) (event : ClientEvent) : Decidable (Patient md5 m c event) :=
  match event with
  | .net event =>
    inferInstanceAs (Decidable (∀ setup ∈ c.setup, ∀ received ∈
      eventLoopOnce md5 { transport := c.session.transport, serial := c.serial } event,
      received.1.Patient m setup c.session.env))
  | .setup _ | .send _ _ | .more _ => .isTrue trivial

/-- A mechanism that answers what it is told to, with a session key or not. -/
def scripted (key : Option Bytes) : Mechanism (List (NtStatus × Bytes)) where
  gensecClientStart e := (.ok, e)
  gensecSetCredentials e := (.ok, e)
  gensecSetTargetHostname e := (.ok, e)
  gensecSetTargetService e := (.ok, e)
  gensecStartMechByOid _ e := (.ok, e)
  gensecUpdate _ e := (e.head?.getD (.ok, []), e.tail)
  gensecSessionKey _ := key
  cliCredentialsWrongPassword e := (false, e)
  cliCredentialsGetNtlmResponse _ e := ((.ok, [], key.getD []), e)

def setupReply (mid : UInt8) (status : UInt32) (mac : UInt8) (words : UInt8) (secblob : Bytes) :
    ClientEvent :=
  .net (.packet ([0, 0, 0, 0, 0xFF, 0x53, 0x4D, 0x42, 0x73] ++ toLe 4 status.toNat ++
    [0x80, 0, 0x40, 0, 0] ++ List.replicate 8 mac ++ List.replicate 8 0 ++ [mid, 0, words] ++
    List.replicate 6 0 ++ (if words = 4 then toLe 2 secblob.length else []) ++
    toLe 2 secblob.length ++ secblob))

/-- A server with extended security that does not sign. -/
def spnegoServer : Negotiate := { protocol := .nt1, secblob := [0x60] }

/-- Extended security is asked for. -/
def spnegoSetup : ClientEvent := .setup { capabilities := 0x80000000 }

/-- Two rounds. -/
theorem session_setup_both_happy_two :
    (client (fun _ => []) (scripted none)).EachStep (fun _ _ seen _ => BothHappy seen)
      (.start .auto spnegoServer [(.moreProcessingRequired, [1]), (.ok, [2])])
      [spnegoSetup, setupReply 1 0xC0000016 0 4 [5], setupReply 2 0 0 4 []] :=
  session_setup_both_happy _ _ _ _ _ _ (.of_check _ _ (by decide))

/-- The end of a setup: its status, the replies and the updates. -/
def setupEnd {E : Type} (run : Option (Option Seen × Client E)) :
    Option (NtStatus × List NtStatus × List NtStatus) :=
  run.bind fun (seen, _) => seen.bind fun seen => seen.outcome.bind fun outcome =>
    outcome.setup.map fun setup => (outcome.status, setup.replies, setup.updates)

/-- The server asks for more, the mechanism is done with no token: success. With a token the setup
goes on. -/
theorem session_setup_one_happy :
    setupEnd ((client (fun _ => []) (scripted none)).run
      (.start .auto spnegoServer [(.moreProcessingRequired, [1]), (.ok, [])])
      [spnegoSetup, setupReply 1 0xC0000016 0 4 [5]]) =
        some (.ok, [.moreProcessingRequired], [.moreProcessingRequired, .ok]) ∧
    setupEnd ((client (fun _ => []) (scripted none)).run
      (.start .auto spnegoServer [(.moreProcessingRequired, [1]), (.ok, [2])])
      [spnegoSetup, setupReply 1 0xC0000016 0 4 [5], setupReply 2 0 0 4 []]) =
        some (.ok, [.moreProcessingRequired, .ok], [.moreProcessingRequired, .ok]) :=
  ⟨by decide, by decide⟩

end OpenvasSmb.Smb
