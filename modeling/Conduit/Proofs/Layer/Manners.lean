import Conduit.Layer.Plain
import Conduit.Layer.Secure
import Conduit.Proofs.Layer.Inward

/-!
# What each kind of layer asks

The plain layer asks nothing of other connections. The TLS layer asks the one below, and so does a layer that hands
everything on.

* `Plain.step_inward`, `Secure.step_inward`, `Layer.forward_inward`: every method keeps to what a layer may ask, and
  lets the connection go when it should.
* `Program.Still`: a farewell asks nothing of any connection.
-/

namespace Conduit

open Layer Layer.Act

variable {H : Host} {σ α β : Type} {K : List Handle}

/-! ## The plain layer -/

namespace Plain

variable {me : Handle} {l : Plain H.Pcb}

theorem withPcb_stays (o : PcbOp) (absent : o.Reply) : (withPcb o absent : Act H o.Reply).Stays := by
  unfold withPcb
  refine stays_get.bind fun s => ?_
  split
  · exact stays_pcb _ _
  · exact stays_pure _

theorem offer_stays (me : Handle) : (offer me : Act H Unit).Stays := by
  unfold offer
  refine stays_get.bind fun s => ?_
  split
  · exact stays_pure _
  · split
    · split
      · exact (stays_set _).bind fun _ => (withPcb_stays _ _).bind fun _ => stays_note _
      · exact stays_pure _
    · split
      · exact (stays_set _).bind fun _ => stays_emit rfl
      · split
        · exact (stays_set _).bind fun _ => stays_emit rfl
        · exact stays_pure _

/-- Only an error ends the connection. -/
theorem lower_inward (me : Handle) (e : Event) :
    Inward true (lower me e : Act H Unit) l K fun _ _ _ _ => True := by
  unfold lower
  split
  · exact ((stays_modify _).bind fun _ => offer_stays me).inward fun _ _ _ => trivial
  · exact (stays_get.bind fun _ => (stays_note _).bind fun _ =>
      (stays_modify _).bind fun _ => offer_stays me).inward fun _ _ _ => trivial
  · exact ((offer_stays me).bind fun _ => stays_emit rfl).inward fun _ _ _ => trivial
  · exact (stays_note _).then fun _ _ _ => (stays_modify _).then fun _ _ _ => ⟨rfl, _, rfl, trivial⟩
  · rename_i hrecv heof hpoll herror
    refine (stays_emit ?_).inward fun _ _ _ => trivial
    cases e with
    | error f => exact absurd rfl (herror f)
    | _ => rfl

theorem settle_stays (me : Handle) (v : Outcome) : (settle me v : Act H Unit).Stays := by
  unfold settle
  refine stays_get.bind fun s => ?_
  split
  · exact stays_pure _
  · refine (stays_modify _).bind fun _ => ?_
    split
    · exact (stays_modify _).bind fun _ => offer_stays me
    · exact stays_note _

theorem abort_stays (me : Handle) : (abort me : Act H Unit).Stays := by
  unfold abort
  refine stays_get.bind fun s => ?_
  split
  · exact (stays_modify _).bind fun _ => (stays_pcb _ _).bind fun _ => (stays_pcb _ _).bind fun _ =>
      (stays_note _).bind fun _ => stays_modify _
  · exact stays_modify _

/-- A plain connection goes when its endpoint is closed. -/
theorem close_inward (me : Handle) :
    Inward false (close me : Act H Outcome) l K fun _ released r _ => r = .ok () → released = true := by
  unfold close
  refine stays_get.then fun s l K => ?_
  split
  · exact ⟨_, rfl, fun _ => rfl⟩
  · refine (stays_pcb _ _).then fun _ l K => (stays_pcb _ _).then fun r l K => ?_
    split
    · exact (stays_modify _).then fun _ l K => ⟨_, rfl, fun _ => rfl⟩
    · -- the endpoint refuses to be closed, and the connection stays
      refine (stays_pcb _ _).then fun _ l K => stays_pollInterval.then fun _ l K => (stays_pcb _ _).then fun _ l K =>
        (stays_note _).then fun _ l K => ?_
      intro h
      cases h

theorem shutdown_inward (me : Handle) (d : Direction) :
    Inward false (shutdown me d : Act H Outcome) l K fun _ _ _ _ => True := by
  unfold shutdown
  split
  · exact (close_inward me).mono fun _ _ _ _ _ => trivial
  · refine Stays.inward ?_ fun _ _ _ => trivial
    refine (withPcb_stays _ _).bind fun r => ?_
    split
    · exact stays_pure _
    · split
      · exact (stays_modify _).bind fun _ => (offer_stays me).bind fun _ => stays_pure _
      · exact stays_pure _

/-- **Every method of a plain layer keeps to what a layer may ask.** -/
theorem step_inward (me : Handle) (m : Method) (hm : m ≠ .dealloc) (l : Plain H.Pcb) :
    Inward m.isLower (step me m) l [] fun _ released r _ => m.Settled released r := by
  cases m with
  | dealloc => exact absurd rfl hm
  | settled v => exact (settle_stays me v).inward fun _ _ _ => .of_false rfl
  | op o =>
    cases o with
    | lower e =>
      refine Inward.map ((lower_inward me e).mono fun _ _ _ _ _ => ⟨fun h => ?_, fun h => ?_⟩)
      · cases h
      · cases h
    | abort => exact (abort_stays me).inward fun _ _ _ => .of_false rfl
    | close =>
      refine (close_inward me).mono fun _ _ r _ h => ⟨fun hc => h ?_, fun hc => ?_⟩
      · cases r with
        | ok => rfl
        | error => cases hc
      · cases hc
    | shutdown d =>
      refine (shutdown_inward me d).mono fun _ _ r _ _ => ⟨fun hc => ?_, fun hc => ?_⟩
      · cases hc
      · cases hc
    | _ => exact (withPcb_stays _ _).inward fun _ _ _ => .of_false rfl

end Plain

/-! ## Layers that hand everything on -/

theorem Layer.forward_inward (m : Method) (s : σ) :
    Inward m.isLower (forward m : Act H σ m.Reply) s [] fun _ released r _ => m.Settled released r := by
  have hbelow : ∀ o : Op, (Method.op o).isLower = false → (∀ r, (Method.op o).closes r = false) →
      Inward (Method.op o).isLower (below o (o.refused .invalidArgument) : Act H σ o.Reply) s []
        fun _ released r _ => (Method.op o).Settled released r :=
    fun o ho hc => (stays_below ho _).inward fun _ r _ => .of_false (hc r)
  cases m with
  | dealloc | settled v => exact (stays_pure _).inward fun _ _ _ => .of_false rfl
  | op o =>
    cases o with
    | lower e =>
      cases e with
      -- an error is the end of this connection as well
      | error f => exact ⟨rfl, _, rfl, by simp [Method.closes], by simp⟩
      | _ => exact ⟨rfl, .of_false rfl⟩
    | close =>
      refine inward_inner fun x => ?_
      cases x with
      | none => exact .of_false rfl
      | some id =>
        refine inward_ask (by simp) rfl fun r => ?_
        cases r with
        | ok u => exact ⟨_, rfl, fun _ => rfl, fun h => by cases h⟩
        | error f => exact .of_false rfl
    | _ => exact hbelow _ rfl fun _ => rfl

/-! ## Engines -/

namespace Tls

theorem Feed.push_stays (d : Bytes) : (Feed.push d : Act H Feed (Except Fault Nat)).Stays := by
  intro s K
  refine inward_inner fun x => ?_
  cases x with
  | none => rfl
  | some id =>
    refine inward_ask (by simp) rfl fun n => ?_
    simp only
    split
    · rfl
    · refine inward_ask (by simp) rfl fun r => ?_
      split <;> rfl

theorem Feed.answer_stays (r : RecordReq H.Shared) : (Feed.answer r : Act H Feed r.Ans).Stays := by
  cases r with
  | available => exact stays_map stays_get _
  | peek n => exact stays_map stays_get _
  | pull n => exact stays_get.bind fun _ => (stays_set _).bind fun _ => stays_pure _
  | push d => exact Feed.push_stays d
  | note n => exact stays_note n
  | shared => exact fun _ _ _ => rfl
  | setShared => exact fun _ _ => rfl

theorem run_stays (p : EngineAct H.Shared α) : (p.run Feed.answer : Act H Feed α).Stays := by
  induction p with
  | done a => exact stays_pure a
  | ask r next ih => exact (Feed.answer_stays r).bind ih

/-- An engine asks the connection below for room, and to write. -/
theorem drive_stays (s : Session H.Engine) (p : EngineAct H.Shared (H.Engine × α)) :
    (s.drive p : Act H σ (Session H.Engine × α)).Stays := by
  intro state K
  refine (Program.inward_bind _ _).2 (Program.Inward.mono (run_stays p ⟨s.rx, s.bytesRead⟩ K) ?_)
  rintro K' released ⟨⟨e, a⟩, feed⟩ rfl
  rfl

theorem create_stays (config : Config H.Source) (name : Option String) :
    (Layer.create newEngine config name : Act H σ (Except Fault (Layer H.Source H.Engine))).Stays := by
  unfold Layer.create
  split
  · exact stays_map (stays_newEngine _ _) _
  · simp only
    split
    · exact stays_pure _
    · split
      · exact stays_pure _
      · exact stays_map (stays_newEngine _ _) _

end Tls

/-! ## The TLS layer -/

namespace Secure

open Tls

variable {ops : EngineOps H.Engine H.Shared} {me : Handle} {l : Tls.Layer H.Source H.Engine}

theorem ackLower_stays (n : Nat) : (ackLower n : Act H Unit).Stays := by
  unfold ackLower
  split
  · exact stays_pure _
  · intro s K
    refine inward_inner fun x => ?_
    cases x with
    | none => rfl
    | some id => exact ⟨by simp, rfl, fun _ => rfl⟩

theorem outputLower_stays (me : Handle) : (outputLower me : Act H Unit).Stays := by
  intro s K
  refine inward_inner fun x => ?_
  cases x with
  | none => rfl
  | some id =>
    refine inward_ask (by simp) rfl fun r => ?_
    split <;> rfl

theorem dropLower_stays : (dropLower : Act H Unit).Stays := by
  intro s K
  refine inward_inner fun x => ?_
  cases x with
  | none => rfl
  | some id =>
    refine inward_ask (by simp) rfl fun r => ?_
    split
    · rfl
    · exact ⟨by simp, rfl, fun _ => rfl⟩

theorem flush_stays : (flush ops me : Act H (Except Fault Bool)).Stays := by
  unfold flush
  refine stays_get.bind fun l => ?_
  split
  · exact stays_pure _
  · refine (drive_stays _ _).bind fun r => (stays_modify _).bind fun _ => ?_
    split
    · exact stays_pure _
    · exact (outputLower_stays me).bind fun _ => stays_pure _

theorem flushOn_stays (what : String) : (flushOn ops me what : Act H Unit).Stays := by
  unfold flushOn
  refine flush_stays.bind fun r => ?_
  split
  · exact stays_pure _
  · exact stays_note _

theorem afterRxClosed_stays : (afterRxClosed me : Act H Unit).Stays := by
  unfold afterRxClosed
  refine stays_get.bind fun l => ?_
  split
  · exact (stays_modify _).bind fun _ => stays_note _
  · exact stays_pure _

theorem deliverEof_stays : (deliverEof me : Act H Unit).Stays := by
  unfold deliverEof
  refine stays_get.bind fun l => ?_
  split
  · exact stays_pure _
  · exact (stays_modify _).bind fun _ => (stays_note _).bind fun _ => (stays_emit rfl).bind fun _ =>
      afterRxClosed_stays

/-- A session that fails takes the connection below along, but not its own. -/
theorem failSession_stays (f : Fault) : (failSession me f : Act H Unit).Stays := by
  unfold failSession
  refine (stays_note _).bind fun _ => (stays_modify _).bind fun _ => stays_get.bind fun l => ?_
  split
  · exact (stays_modify _).bind fun _ => (stays_emit rfl).bind fun _ => dropLower_stays
  · exact dropLower_stays

theorem ackOverhead_stays (s : Session H.Engine) : (ackOverhead me s : Act H Unit).Stays := by
  have hrest : ∀ n : Nat, (do
      setSession { s with bytesRead := 0, bytesAppl := 0 }
      if 0 < n then
        note (.trace "record overhead acknowledged" [me.field, ("overhead", toString n)])
        ackLower n : Act H Unit).Stays := by
    intro n
    refine (stays_modify _).bind fun _ => ?_
    split
    · exact (stays_note _).bind fun _ => ackLower_stays _
    · exact stays_pure _
  unfold ackOverhead
  simp only
  split
  · exact (stays_note _).bind fun _ => hrest _
  · exact hrest _

theorem offer_stays (s : Session H.Engine) : (offer s : Act H Unit).Stays :=
  (stays_modify _).bind fun _ => stays_emit rfl

theorem offerHeld_stays : (offerHeld : Act H Unit).Stays := by
  unfold offerHeld
  refine stays_get.bind fun l => ?_
  split
  · split
    · exact stays_pure _
    · exact offer_stays _
  · exact stays_pure _

theorem openRecord_stays (s : Session H.Engine) : (openRecord ops me s : Act H Unit).Stays := by
  unfold openRecord
  refine stays_get.bind fun l => (drive_stays _ _).bind fun r => (stays_modify _).bind fun _ => ?_
  split
  · refine (stays_modify _).bind fun _ => ?_
    split
    · exact (ackOverhead_stays _).bind fun _ => offerHeld_stays
    · exact offerHeld_stays
  · have heof : (do if (← get).rxState = .eofQueued then deliverEof me : Act H Unit).Stays := by
      refine stays_get.bind fun l => ?_
      split
      · exact deliverEof_stays
      · exact stays_pure _
    split
    · exact (ackOverhead_stays _).bind fun _ => heof
    · exact heof
  · exact (ackOverhead_stays _).bind fun _ => (stays_note _).bind fun _ => deliverEof_stays
  · exact failSession_stays _

theorem deliver_stays : (deliver ops me : Act H Unit).Stays := by
  unfold deliver
  refine stays_get.bind fun l => ?_
  split
  · exact stays_pure _
  · split
    · exact stays_pure _
    · split
      · exact stays_pure _
      · split
        · exact offer_stays _
        · exact openRecord_stays _

theorem establish_stays : (establish ops me : Act H Unit).Stays := by
  unfold establish
  refine (stays_modify _).bind fun _ => stays_get.bind fun l => (stays_note _).bind fun _ =>
    stays_get.bind fun l => ?_
  split
  · exact (stays_modify _).bind fun _ => stays_emit rfl
  · exact stays_pure _

theorem receive_stays : (receive ops me : Act H Unit).Stays := by
  unfold receive
  refine stays_get.bind fun l => ?_
  split
  · split
    · exact stays_pure _
    · refine (drive_stays _ _).bind fun r => (stays_modify _).bind fun _ => (outputLower_stays me).bind fun _ =>
        (ackLower_stays _).bind fun _ => ?_
      split
      · exact stays_pure _
      · exact failSession_stays _
      · exact establish_stays.bind fun _ => deliver_stays
  · exact deliver_stays

/-- A peer that closes before the handshake is complete ends the connection. -/
theorem lowerEof_inward : Inward true (lowerEof ops me : Act H Unit) l K fun _ _ _ _ => True := by
  unfold lowerEof
  refine stays_get.then fun l' l K => ?_
  split
  · refine Stays.inward ?_ fun _ _ _ => trivial
    split
    · exact stays_pure _
    · exact (stays_modify _).bind fun _ => (stays_note _).bind fun _ => deliver_stays
  · exact (stays_note _).then fun _ _ _ => (stays_modify _).then fun _ _ _ => dropLower_stays.then fun _ _ _ =>
      ⟨rfl, _, rfl, trivial⟩
  · trivial
  · trivial

theorem accept_inward (new : Handle) : Inward true (accept me new : Act H Outcome) l K fun _ _ _ _ => True := by
  unfold accept
  refine stays_get.then fun l' l K => (create_stays _ _).then fun r l K => ?_
  split
  · trivial
  · refine inward_cover fun x => ?_
    cases x with
    | error f => trivial
    | ok conn => exact ⟨rfl, trivial⟩

theorem dropData_stays (n : Nat) : (dropData me n : Act H Unit).Stays :=
  (stays_note _).bind fun _ => ackLower_stays _

theorem lowerData_stays (d : Bytes) : (lowerData ops me d : Act H Unit).Stays := by
  unfold lowerData
  refine stays_get.bind fun l => ?_
  split
  · split
    · exact (stays_modify _).bind fun _ => receive_stays
    · exact dropData_stays _
  · exact dropData_stays _

theorem lower_inward (e : Event) : Inward true (lower ops me e : Act H Outcome) l K fun _ _ _ _ => True := by
  have hstays : ∀ {m : Act H Outcome}, m.Stays → Inward true m l K fun _ _ _ _ => True :=
    fun h => h.inward fun _ _ _ => trivial
  unfold lower
  split
  · refine stays_get.then fun l' l K => ?_
    split
    · trivial
    · exact accept_inward _
  · exact hstays ((stays_note _).bind fun _ => stays_map receive_stays _)
  · exact hstays ((stays_modify _).bind fun _ => stays_map (stays_emit rfl) _)
  · exact hstays (stays_map (lowerData_stays _) _)
  · exact Inward.map lowerEof_inward
  · refine hstays ((stays_note _).bind fun _ => (flushOn_stays _).bind fun _ => stays_get.bind fun l => ?_)
    split
    · exact stays_map (stays_emit rfl) _
    · exact stays_pure _
  · exact hstays ((flushOn_stays _).bind fun _ => deliver_stays.bind fun _ => stays_map (stays_emit rfl) _)
  · exact (stays_note _).then fun _ _ _ => (stays_modify _).then fun _ _ _ => ⟨rfl, _, rfl, trivial⟩

theorem settle_stays (v : Outcome) : (settle ops me v : Act H Unit).Stays := by
  unfold settle
  refine stays_get.bind fun l => ?_
  split
  · exact stays_pure _
  · split
    · exact stays_pure _
    · split
      · exact (stays_modify _).bind fun _ => deliver_stays
      · exact (stays_modify _).bind fun _ => stays_note _

theorem recved_stays (n : Nat) : (recved me n : Act H Unit).Stays := by
  unfold recved
  refine stays_get.bind fun l => ?_
  split
  · simp only
    split
    · exact (stays_note _).bind fun _ => (stays_modify _).bind fun _ => ackLower_stays _
    · exact (stays_modify _).bind fun _ => ackLower_stays _
  · exact stays_pure _

theorem connect_stays (a : Endpoint) : (connect a : Act H Outcome).Stays := by
  unfold connect
  refine stays_get.bind fun l => ?_
  split
  · exact stays_pure _
  · -- what is done when there is an engine
    extract_lets begin
    have hbegin : ∀ ready, (begin ready).Stays := by
      intro ready l K
      cases ready with
      | error f => rfl
      | ok _ =>
        refine inward_inner fun x => ?_
        cases x with
        | none => rfl
        | some id =>
          refine inward_modify_bind (inward_ask (by simp) rfl fun r => ?_)
          cases r <;> rfl
    split
    · exact (stays_pure _).bind hbegin
    · refine (stays_newEngine _ _).bind fun r => ?_
      cases r with
      | error f => exact (stays_pure _).bind hbegin
      | ok e => exact (stays_modify _).bind fun _ => (stays_pure _).bind hbegin

theorem listen_stays (n : Nat) : (listen n : Act H Outcome).Stays := by
  unfold listen
  refine stays_get.bind fun l => ?_
  split
  · exact stays_pure _
  · intro l K
    refine inward_inner fun x => ?_
    cases x with
    | none => rfl
    | some id =>
      refine inward_ask (by simp) rfl fun r => ?_
      split <;> rfl

theorem abort_stays : (abort me : Act H Unit).Stays := by
  unfold abort
  refine (stays_modify _).bind fun _ => fun l K => inward_inner fun x => ?_
  cases x with
  | none => exact inward_note rfl
  | some id => exact inward_ask (by simp) rfl fun _ => inward_note rfl

theorem sendCloseNotify_stays : (sendCloseNotify ops me : Act H Unit).Stays := by
  unfold sendCloseNotify
  refine stays_get.bind fun l => ?_
  split
  · split
    · exact stays_pure _
    · refine (stays_modify _).bind fun _ => flush_stays.bind fun r => ?_
      split
      · exact stays_pure _
      · exact stays_note _
  · exact stays_pure _

theorem shutdownWrite_stays : (shutdownWrite ops me : Act H Outcome).Stays := by
  unfold shutdownWrite
  refine stays_get.bind fun l => ?_
  split
  · exact stays_pure _
  · refine sendCloseNotify_stays.bind fun _ => fun l K => inward_inner fun x => ?_
    cases x with
    | none => rfl
    | some id =>
      refine inward_ask (by simp) rfl fun r => ?_
      split
      · rfl
      · refine @Stays.inward H _ _ false _ _ _ _ ?_ (fun _ _ _ => rfl)
        refine (stays_modify _).bind fun _ => stays_get.bind fun l => ?_
        split
        · exact stays_map afterRxClosed_stays _
        · exact stays_pure _

theorem shutdownRead_stays : (shutdownRead me : Act H Outcome).Stays := by
  intro l K
  refine inward_inner fun x => ?_
  cases x with
  | none => rfl
  | some id =>
    refine inward_ask (by simp) rfl fun r => ?_
    split
    · rfl
    · have hrest : (do
          modify fun l => { l with rxState := .closed }
          afterRxClosed me
          pure (.ok ()) : Act H Outcome).Stays :=
        (stays_modify _).bind fun _ => stays_map afterRxClosed_stays _
      refine @Stays.inward H _ _ false _ _ _ _ ?_ fun _ _ _ => rfl
      refine stays_get.bind fun l => ?_
      split
      · exact hrest
      · exact (stays_modify _).bind fun _ => (stays_note _).bind fun _ => (ackLower_stays _).bind fun _ => hrest

/-- A TLS connection goes when the one below is closed. -/
theorem close_inward :
    Inward false (close ops me : Act H Outcome) l K fun _ released r _ => r = .ok () → released = true := by
  unfold close
  refine sendCloseNotify_stays.then fun _ l K => inward_inner fun x => ?_
  have hdone : ∀ (l : Tls.Layer H.Source H.Engine) (K : List Handle), Inward false (do
      note (.debug "tls connection closed" [me.field, ("rx_closed", Text.boolText ((← get).rxState = .closed))])
      modify fun l => { l with session := none, txClosed := true, rxState := .closed }
      release
      pure (.ok ()) : Act H Outcome) l K fun _ released r _ => r = .ok () → released = true := fun _ _ =>
    stays_get.then fun _ _ _ => (stays_note _).then fun _ _ _ => (stays_modify _).then fun _ _ _ => ⟨_, rfl, fun _ => rfl⟩
  cases x with
  | none => exact hdone l K
  | some id =>
    refine ⟨by simp, rfl, fun r => ?_⟩
    cases r with
    | error f =>
      intro h
      cases h
    | ok _ => exact hdone _ _

theorem output_stays : (do pure ((← flush ops me).map fun _ => ()) : Act H Outcome).Stays := stays_map flush_stays _

theorem encrypt_stays (d : Bytes) (clear : Except Fault Bool) : (encrypt ops me d clear : Act H Outcome).Stays := by
  unfold encrypt
  split
  · exact stays_pure _
  · exact (stays_note _).bind fun _ => stays_pure _
  · refine stays_get.bind fun l => ?_
    split
    · exact stays_pure _
    · simp only
      refine (stays_modify _).bind fun _ => ?_
      split
      · exact stays_pure _
      · split
        · exact (stays_note _).bind fun _ => stays_pure _
        · exact (stays_modify _).bind fun _ => output_stays

theorem write_stays (d : Bytes) : (write ops me d : Act H Outcome).Stays := by
  unfold write
  refine stays_get.bind fun l => ?_
  split
  · exact stays_pure _
  · exact stays_pure _
  · exact stays_pure _
  · split
    · exact stays_pure _
    · split
      · exact stays_pure _
      · simp only
        split
        · exact flush_stays.bind fun _ => encrypt_stays _ _
        · exact (stays_pure _).bind fun _ => encrypt_stays _ _

/-- **Every method of a TLS layer keeps to what a layer may ask.** -/
theorem step_inward (m : Method) (hm : m ≠ .dealloc) (l : Tls.Layer H.Source H.Engine) :
    Inward m.isLower (step ops me m) l [] fun _ released r _ => m.Settled released r := by
  have hstays : ∀ {m : Method} {p : Act H m.Reply}, p.Stays → (∀ r, m.closes r = false) →
      Inward m.isLower p l [] fun _ released r _ => m.Settled released r :=
    fun h hc => h.inward fun _ r _ => .of_false (hc r)
  have hbelow : ∀ {m : Method} {p : Act H m.Reply}, (∀ r, m.closes r = false) → m ≠ .op .abort →
      Inward m.isLower p l [] (fun _ _ _ _ => True) → Inward m.isLower p l [] fun _ released r _ => m.Settled released r :=
    fun hc ha h => h.mono fun _ _ r _ _ => ⟨fun h => absurd h (by simp [hc r]), fun h => absurd h ha⟩
  cases m with
  | dealloc => exact absurd rfl hm
  | settled v => exact hstays (settle_stays v) fun _ => rfl
  | op o =>
    cases o with
    | lower e => exact hbelow (fun _ => rfl) (by simp) (lower_inward e)
    | recved n => exact hstays (recved_stays n) fun _ => rfl
    | connect a => exact hstays (connect_stays a) fun _ => rfl
    | listen n => exact hstays (listen_stays n) fun _ => rfl
    | abort => exact hstays abort_stays fun _ => rfl
    | write d f => exact hstays (write_stays d) fun _ => rfl
    | output => exact hstays output_stays fun _ => rfl
    | close =>
      refine close_inward.mono fun _ _ r _ h => ⟨fun hc => h ?_, fun hc => ?_⟩
      · cases r with
        | ok => rfl
        | error => cases hc
      · cases hc
    | shutdown d =>
      cases d with
      | read => exact hstays shutdownRead_stays fun _ => rfl
      | write => exact hstays shutdownWrite_stays fun _ => rfl
      | both => exact hbelow (fun _ => rfl) (by simp) (close_inward.mono fun _ _ _ _ _ => trivial)
    | _ => exact Layer.forward_inward _ _

end Secure

/-! ## Farewells -/

/-- A program that asks no connection anything, and does nothing to its own. -/
def Program.Still : Program (Layer.io H) α → Prop
  | .done _ => True
  | .ask (.pcb _ _) next => ∀ x, (next x).Still
  | .ask (.note _) next => (next ()).Still
  | .ask _ _ => False

theorem Plain.dealloc_still (me : Handle) (l : Plain H.Pcb) : (Plain.step (H := H) me .dealloc l).Still := by
  obtain ⟨pcb⟩ := l
  cases pcb with
  | none => exact trivial
  | some p => exact fun _ _ => trivial

theorem Secure.dealloc_still (ops : Tls.EngineOps H.Engine H.Shared) (me : Handle)
    (l : Tls.Layer H.Source H.Engine) : (Secure.step (H := H) ops me .dealloc l).Still := by
  obtain ⟨config, phase, rxState, txClosed, session⟩ := l
  cases session <;> exact trivial

theorem Layer.forward_dealloc_still (s : σ) : (forward (H := H) .dealloc s).Still := trivial

end Conduit
