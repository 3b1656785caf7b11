import Conduit.Proofs.Tls.Toy

/-!
# Toy engines in pairs

Two toy engines that have shaken hands, and for which no failure is planned, understand each other: what the one
encrypts is a row of records, of which the other makes the same plaintext.

* `sealed_eq`: what is encrypted is a row of records.
* `Flow`: a stream of whole records of plaintext; `rest_flow`: what an engine makes of it.
* `drain_sends`, `decryptIn_unseals`: what the calls of such an engine come to.
* `couples`: **such engines go on to understand each other.**
-/

namespace Conduit.Tls.Toy

variable {V : Type} {e e' f : Engine} {c c' x s t : Bytes} {ps : List Push} {tag frag : Nat} {ds : List Bytes}

/-! ## Records of plaintext -/

/-- A record of plaintext. -/
def piece (tag : Nat) (d : Bytes) : Bytes := record 0x17 (d ++ List.replicate tag 0xAA)

theorem length_piece (tag : Nat) (d : Bytes) : (piece tag d).length = 5 + d.length + tag := by
  simp only [piece, record, List.length_append, List.length_cons, List.length_nil, List.length_replicate]
  omega

/-- A record is read as it was written. -/
theorem cut?_record {type : UInt8} {body : Bytes} (h : body.length < 2 ^ 16) (x : Bytes) :
    cut? (record type body ++ x) = some (type, body, x) := by
  have hhi : (UInt8.ofNat (body.length / 256)).toNat = body.length / 256 := by
    rw [UInt8.toNat_ofNat']
    omega
  have hlo : (UInt8.ofNat body.length).toNat = body.length % 256 := UInt8.toNat_ofNat'
  -- the header gives the length of the body in two bytes
  have htotal : 5 + (UInt8.ofNat (body.length / 256)).toNat * 256 + (UInt8.ofNat body.length).toNat =
      body.length + 5 := by
    rw [hhi, hlo]
    omega
  unfold cut? record
  simp only [List.cons_append, List.nil_append, List.take_succ_cons, List.take_zero, htotal]
  rw [if_neg (by simp only [List.length_cons, List.length_append]; omega)]
  simp only [List.drop_succ_cons, List.drop_zero, List.take_left, List.drop_left]

theorem cut?_piece {d : Bytes} (h : d.length + tag < 2 ^ 16) (x : Bytes) :
    cut? (piece tag d ++ x) = some (0x17, d ++ List.replicate tag 0xAA, x) :=
  cut?_record (by rw [List.length_append, List.length_replicate]; exact h) x

/-- What is encrypted is a row of records, each of which holds some of it. -/
theorem sealed_eq (hf : 0 < frag) (k : Nat) (data : Bytes) (hk : data.length ≤ k) :
    ∃ ds : List Bytes, sealed frag tag k data = ds.flatMap (piece tag) ∧ ds.flatten = data ∧
      ∀ d ∈ ds, d ≠ [] ∧ d.length ≤ frag := by
  induction k generalizing data with
  | zero =>
    obtain rfl := List.length_eq_zero_iff.1 (Nat.le_zero.1 hk)
    exact ⟨[], rfl, rfl, by simp⟩
  | succ k ih =>
    by_cases hd : data = []
    · subst hd
      exact ⟨[], rfl, rfl, by simp⟩
    · have hpos : 0 < data.length := List.length_pos_iff.2 hd
      obtain ⟨ds, hs, hflat, hds⟩ := ih (data.drop frag) (by rw [List.length_drop]; omega)
      refine ⟨data.take frag :: ds, ?_, ?_, ?_⟩
      · rw [sealed, if_neg (by simpa using hd), hs]
        rfl
      · rw [List.flatten_cons, hflat, List.take_append_drop]
      · intro d hm
        rcases List.mem_cons.1 hm with rfl | hm
        · refine ⟨?_, List.length_take_le ..⟩
          rw [← List.length_pos_iff, List.length_take]
          omega
        · exact hds d hm

/-! ## Streams of records -/

/-- A stream of whole records of plaintext. -/
structure Flow (tag frag : Nat) (s : Bytes) (ds : List Bytes) : Prop where
  eq : s = ds.flatMap (piece tag)
  pieces : ∀ d ∈ ds, d ≠ [] ∧ d.length ≤ frag

theorem Flow.append {ds' : List Bytes} (h : Flow tag frag s ds) (h' : Flow tag frag t ds') :
    Flow tag frag (s ++ t) (ds ++ ds') := by
  refine ⟨?_, fun d hd => ?_⟩
  · rw [h.eq, h'.eq, List.flatMap_append]
  · rcases List.mem_append.1 hd with hd | hd
    · exact h.pieces d hd
    · exact h'.pieces d hd

theorem Flow.tail {d : Bytes} (h : Flow tag frag s (d :: ds)) : Flow tag frag (ds.flatMap (piece tag)) ds :=
  ⟨rfl, fun d' hd' => h.pieces d' (List.mem_cons_of_mem _ hd')⟩

theorem Flow.cut?_eq {d : Bytes} (h : Flow tag frag s (d :: ds)) (hsize : frag + tag < 2 ^ 16) :
    cut? s = some (0x17, d ++ List.replicate tag 0xAA, ds.flatMap (piece tag)) := by
  have hd := (h.pieces d List.mem_cons_self).2
  rw [h.eq, List.flatMap_cons, cut?_piece (by omega)]

/-- The first whole record of part of a flow is the first of the flow. -/
theorem Flow.cut (h : Flow tag frag (c ++ x) ds) (hsize : frag + tag < 2 ^ 16) {type : UInt8} {body more : Bytes}
    (hc : cut? c = some (type, body, more)) :
    ∃ d ds', d ≠ [] ∧ type = 0x17 ∧ body = d ++ List.replicate tag 0xAA ∧ Flow tag frag (more ++ x) ds' := by
  have hcut := cut?_append hc x
  cases ds with
  | nil =>
    rw [h.eq] at hcut
    cases hcut
  | cons d ds =>
    rw [h.cut?_eq hsize] at hcut
    simp only [Option.some.injEq, Prod.mk.injEq] at hcut
    obtain ⟨rfl, rfl, hmore⟩ := hcut
    refine ⟨d, ds, (h.pieces d List.mem_cons_self).1, rfl, rfl, ?_⟩
    rw [← hmore]
    exact h.tail

/-- Part of a flow that holds no whole record is shorter than one. -/
theorem Flow.short (h : Flow tag frag (c ++ x) ds) (hsize : frag + tag < 2 ^ 16) (hc : cut? c = none) :
    c.length < 5 + frag + tag ∧ (x = [] → c = []) := by
  cases ds with
  | nil =>
    obtain ⟨rfl, -⟩ := List.append_eq_nil_iff.1 h.eq
    exact ⟨by simp only [List.length_nil]; omega, fun _ => rfl⟩
  | cons d ds =>
    have hd := (h.pieces d List.mem_cons_self).2
    have hlen := length_piece tag d
    have hprefix : piece tag d <+: c ++ x := by
      rw [h.eq, List.flatMap_cons]
      exact List.prefix_append _ _
    have hlt : c.length < (piece tag d).length := by
      -- otherwise the first record would be whole
      refine Decidable.byContradiction fun hge => ?_
      obtain ⟨y, rfl⟩ := List.prefix_of_prefix_length_le hprefix (List.prefix_append c x) (Nat.le_of_not_lt hge)
      rw [cut?_piece (by omega)] at hc
      cases hc
    refine ⟨by omega, ?_⟩
    rintro rfl
    have := hprefix.length_le
    rw [List.append_nil] at this
    omega

/-! ## Engines without failures -/

/-- An engine that has shaken hands, and for which no failure is planned. -/
structure Able (tag frag : Nat) (e : Engine) : Prop where
  done : e.done = true
  opened : e.closed = false
  faults : e.profile.faults = []
  inflate : e.profile.inflate = 1
  tag : e.profile.tag = tag
  pos : 0 < e.profile.frag
  frag : e.profile.frag ≤ frag

theorem Able.alike (h : Able tag frag e) (ha : Alike e e') : Able tag frag e' := by
  have hp := ha.profile
  exact ⟨ha.done.trans h.done, ha.closed.trans h.opened, by rw [hp]; exact h.faults, by rw [hp]; exact h.inflate,
    by rw [hp]; exact h.tag, by rw [hp]; exact h.pos, by rw [hp]; exact h.frag⟩

theorem Able.reliable (h : Able tag frag e) : Reliable e := h.faults

/-- A record of plaintext is understood. -/
theorem handle_piece (h : Able tag frag e) (d : Bytes) :
    handle e 0x17 (d ++ List.replicate tag 0xAA) = ({ e with plain := e.plain ++ d }, .ok ()) := by
  have hdup : d.flatMap (List.replicate 1) = d := List.flatMap_singleton' d
  have hlen : (d ++ List.replicate tag (0xAA : UInt8)).length - tag = d.length := by
    rw [List.length_append, List.length_replicate, Nat.add_sub_cancel]
  unfold handle
  simp only [h.done, h.tag, h.inflate, hlen, List.take_left, List.drop_left, hdup]
  simp

/-- What an engine makes of a flow. -/
theorem rest_flow (h : Able tag frag e) (hsize : frag + tag < 2 ^ 16) (hs : Flow tag frag s ds) :
    rest e s = ds.flatten := by
  induction ds generalizing e s with
  | nil =>
    rw [hs.eq]
    exact rest_of_none rfl
  | cons d ds ih =>
    obtain ⟨t, ht, hrest⟩ := rest_of_cut h.opened (hs.cut?_eq hsize) (handle_piece h d)
    obtain rfl : d = t := List.append_cancel_left ht
    have hable : Able tag frag { e with plain := e.plain ++ d } := h.alike ⟨rfl, rfl, rfl, rfl⟩
    rw [hrest, ih hable hs.tail]
    rfl

/-! ## What such an engine does -/

/-- What has been sent when so much was tried: all, or as much as there was room for. -/
structure Sends (out : Bytes) (ps : List Push) (left : Bytes) : Prop where
  eq : out = sent ps ++ left
  cramped : left ≠ [] → Cramped ps

theorem drainIn_sends (k : Nat) (e : Engine) (hk : e.out.length ≤ k) :
    Runs (drainIn (V := V) k e) c fun r ps c' => Taken ps →
      c' = c ∧ ∃ out clear, r = ({ e with out := out }, .ok clear) ∧ Sends e.out ps out ∧
        (clear = true → out = []) := by
  induction k generalizing e with
  | zero =>
    have hempty : e.out = [] := List.length_eq_zero_iff.1 (Nat.le_zero.1 hk)
    exact (runs_done _).2 fun _ => ⟨rfl, e.out, _, rfl, ⟨rfl, fun hne => absurd hempty hne⟩, fun _ => hempty⟩
  | succ k ih =>
    unfold drainIn
    split
    · rename_i hempty
      have hempty : e.out = [] := by simpa using hempty
      exact (runs_done _).2 fun _ => ⟨rfl, e.out, _, rfl, ⟨rfl, fun hne => absurd hempty hne⟩, fun _ => hempty⟩
    · rename_i hne
      have hne : e.out ≠ [] := by simpa using hne
      rw [runs_bind, runs_push]
      intro x hx
      rcases x with f | _ | n
      · -- what is refused is not taken
        refine (runs_done _).2 fun htaken => ?_
        obtain ⟨n, hn⟩ := htaken ⟨e.out, .error f⟩ (by simp)
        cases hn
      · refine (runs_done _).2 fun _ => ⟨rfl, e.out, false, rfl, ⟨rfl, fun _ => ?_⟩, by simp⟩
        exact ⟨[], e.out, 0, rfl, List.length_pos_iff.2 hne⟩
      · -- some is taken, and the rest is tried again
        have hn := hx (n + 1) rfl
        refine (ih { e with out := e.out.drop (n + 1) } (by simp only [List.length_drop]; omega)).mono ?_
        intro r qs c' h htaken
        obtain ⟨rfl, out, clear, hr, ⟨heq, hcramped⟩, hclear⟩ := h fun y hy => htaken y (List.mem_append_right _ hy)
        refine ⟨rfl, out, clear, hr, ⟨?_, fun ho => ?_⟩, hclear⟩
        · calc e.out = e.out.take (n + 1) ++ e.out.drop (n + 1) := (List.take_append_drop _ _).symm
            _ = e.out.take (n + 1) ++ (sent qs ++ out) := congrArg _ heq
            _ = sent (⟨e.out, .ok (n + 1)⟩ :: qs) ++ out := (List.append_assoc ..).symm
        · obtain ⟨qs, d, m, rfl, hm⟩ := hcramped ho
          exact ⟨_ :: qs, d, m, rfl, hm⟩

theorem drain_sends (e : Engine) :
    Runs (drain (V := V) e) c fun r ps c' => Taken ps →
      c' = c ∧ ∃ out clear, r = ({ e with out := out }, .ok clear) ∧ Sends e.out ps out ∧
        (clear = true → out = []) :=
  drainIn_sends _ e (Nat.le_refl _)

/-- What a decryption comes to over part of a flow, when `x` is still to come. -/
structure Unseals (tag frag : Nat) (e : Engine) (x : Bytes) (e' : Engine) (y : Decrypted) (ps : List Push)
    (c' : Bytes) : Prop where
  able : Able tag frag e'
  flow : ∃ ds, Flow tag frag (c' ++ x) ds
  eq : e.out = sent ps ++ e'.out
  cramped : e'.out ≠ [] → ps = [] ∨ Cramped ps
  yields : match y with
    | .data text => text ≠ []
    | .wouldBlock => e'.plain = [] ∧ cut? c' = none
    | .peerClosed => False

/-- Plaintext that is there is handed out. -/
theorem decryptIn_held {n : Nat} (k : Nat) (h : e.plain ≠ []) :
    decryptIn (V := V) n (k + 1) e = pure ({ e with plain := e.plain.drop n }, .ok (.data (e.plain.take n))) := by
  rw [decryptIn, if_pos (by simpa using h)]

theorem decryptIn_unseals {n : Nat} (k : Nat) (h : Able tag frag e) (hsize : frag + tag < 2 ^ 16)
    (hs : Flow tag frag (c ++ x) ds) (hn : 0 < n) (hk : c.length < k) :
    Runs (decryptIn (V := V) n k e) c fun r ps c' =>
      Taken ps → ∃ y, r.2 = .ok y ∧ Unseals tag frag e x r.1 y ps c' := by
  have hsome : ∀ {plain : Bytes}, plain ≠ [] → plain.take n ≠ [] := by
    intro plain hne
    rw [← List.length_pos_iff] at hne ⊢
    rw [List.length_take]
    omega
  obtain ⟨k, rfl⟩ : ∃ j, k = j + 1 := ⟨k - 1, by omega⟩
  by_cases hplain : e.plain = []
  · rw [decryptIn, if_neg (by simp [hplain]), if_neg (by rw [h.opened]; simp), runs_bind]
    refine feed_runs e (fun hcut => ?_) (fun type body more e₁ hcut hh => ?_) fun type body more e₁ f hcut hh => ?_
    · refine (runs_done _).2 fun _ => ⟨_, rfl, h, ⟨ds, hs⟩, rfl, fun _ => .inl rfl, hplain, hcut⟩
    · -- the record yields plaintext, which the next turn hands out
      obtain ⟨d, ds', hd, rfl, rfl, hmore⟩ := hs.cut hsize hcut
      rw [handle_piece h d] at hh
      cases hh
      dsimp only
      rw [runs_bind]
      refine (drain_sends _).mono ?_
      intro r ps c₁ hdrain
      by_cases hps : Taken ps
      · obtain ⟨rfl, out, clear, rfl, hsends, -⟩ := hdrain hps
        have hlen := cut?_length hcut
        obtain ⟨k, rfl⟩ : ∃ j, k = j + 1 := ⟨k - 1, by omega⟩
        have hheld : e.plain ++ d ≠ [] := fun hnil => hd (List.append_eq_nil_iff.1 hnil).2
        dsimp only
        rw [decryptIn_held (e := { e with plain := e.plain ++ d, out := out }) _ hheld]
        refine (runs_done _).2 fun _ => ⟨_, rfl, h.alike ⟨rfl, rfl, rfl, rfl⟩, ⟨ds', hmore⟩, ?_, ?_, hsome hheld⟩
        · rw [List.nil_append, List.append_nil]
          exact hsends.eq
        · rw [List.nil_append, List.append_nil]
          exact fun ho => .inr (hsends.cramped ho)
      · intro qs c₂ a _ htaken
        exact absurd (fun y hy => htaken y (List.mem_append_right [] (List.mem_append_left qs hy))) hps
    · -- a record of a flow is never refused
      obtain ⟨d, ds', -, rfl, rfl, -⟩ := hs.cut hsize hcut
      rw [handle_piece h d] at hh
      cases hh
  · rw [decryptIn_held _ hplain]
    refine (runs_done _).2 fun _ => ⟨_, rfl, ?_⟩
    exact ⟨h.alike ⟨rfl, rfl, rfl, rfl⟩, ⟨ds, hs⟩, rfl, fun _ => .inl rfl, hsome hplain⟩

theorem decrypt_unseals {n : Nat} (h : Able tag frag e) (hsize : frag + tag < 2 ^ 16)
    (hs : Flow tag frag (c ++ x) ds) (hn : 0 < n) :
    Runs (decrypt (V := V) e n) c fun r ps c' => Taken ps → ∃ y, r.2 = .ok y ∧ Unseals tag frag e x r.1 y ps c' := by
  have hable : Able tag frag { e with decrypts := e.decrypts + 1 } := h.alike ⟨rfl, rfl, rfl, rfl⟩
  unfold decrypt
  dsimp only
  rw [hable.reliable.error?, runs_bind, runs_available]
  refine (decryptIn_unseals _ hable hsize hs hn (Nat.lt_succ_self _)).mono ?_
  intro r ps c' hr htaken
  obtain ⟨y, hy, hu⟩ := hr htaken
  exact ⟨y, hy, hu.able, hu.flow, hu.eq, hu.cramped, hu.yields⟩

theorem flush_sends (h : Able tag frag e) :
    Runs (flush (V := V) e) c fun r ps _ => Taken ps →
      Sends e.out ps r.1.out ∧ ∃ clear, r.2 = .ok clear ∧ (clear = true → r.1.out = []) := by
  unfold flush
  dsimp only
  rw [h.reliable.error?]
  refine (drain_sends _).mono ?_
  intro r ps c' hr htaken
  obtain ⟨-, out, clear, rfl, hsends, hclear⟩ := hr htaken
  exact ⟨hsends, clear, rfl, hclear⟩

/-! ## Pairs -/

/-- Toy engines whose records end in `tag` bytes, and hold no more than `frag` bytes of plaintext. -/
def coupling (tag frag : Nat) : Coupling Engine where
  out e := e.out
  plain := reading
  waits e c := e.plain = [] ∧ cut? c = none
  parted e _ := e.closed = true
  joined e f s t := Able tag frag e ∧ Able tag frag f ∧ (∃ ds, Flow tag frag s ds) ∧ ∃ ds, Flow tag frag t ds
  largest := 5 + frag + tag

theorem Alike.same (h : Alike e e') (hp : e'.plain = e.plain) : (coupling tag frag).Same (ops (V := V)) e e' := by
  refine ⟨fun c => (reading_alike h hp c).symm, fun c => ?_, fun c hw => ⟨hp.trans hw.1, hw.2⟩,
    Nat.le_of_eq (congrArg List.length hp)⟩
  show e'.closed = true ↔ e.closed = true
  rw [h.closed]

/-- What is encrypted becomes a flow, of which the other engine makes what was encrypted. -/
theorem encrypt_flow (h : Able tag frag e) (ho : e.out = []) (data : Bytes) :
    ∃ ds, (encrypt e data).2 = .ok data.length ∧ Flow tag frag (encrypt e data).1.out ds ∧ ds.flatten = data := by
  obtain ⟨ds, hs, hflat, hds⟩ := sealed_eq h.pos data.length data (Nat.le_refl _)
  unfold encrypt
  dsimp only
  rw [h.reliable.failure?]
  refine ⟨ds, rfl, ⟨?_, fun d hd => ⟨(hds d hd).1, Nat.le_trans (hds d hd).2 h.frag⟩⟩, hflat⟩
  show e.out ++ sealed e.profile.frag e.profile.tag data.length data = _
  rw [ho, h.tag, hs]
  rfl

/-- **Toy engines understand each other**, when both have shaken hands, no failure is planned for either, and a record
is short enough for its header. -/
theorem couples (hsize : frag + tag < 2 ^ 16) : Couples (ops (V := V)) (coupling tag frag) where
  symm h := ⟨h.2.1, h.1, h.2.2.2, h.2.2.1⟩
  wantsWrite e := by
    show (!e.out.isEmpty) = true ↔ e.out ≠ []
    simp
  waits := by
    rintro e f s c x ⟨he, -, -, ds, ht⟩ ⟨hplain, hcut⟩
    obtain ⟨hshort, hlast⟩ := ht.short hsize hcut
    refine ⟨congrArg List.length hplain, hshort, fun hx => ⟨hlast hx, ?_⟩⟩
    show e.plain ++ rest e [] = []
    rw [hplain, rest_of_none rfl]
    rfl
  encrypt := by
    rintro e f s t data ⟨he, hf, ⟨ds, hs⟩, ht⟩ hparted hout -
    obtain ⟨ha, hp⟩ := encrypt_alike e data
    obtain ⟨ds', hok, hflow, hflat⟩ := encrypt_flow he hout data
    refine ⟨(encrypt e data).1, Prod.ext rfl hok, ha.same hp, ⟨he.alike ha, hf, ⟨_, hs.append hflow⟩, ht⟩, ?_, hparted⟩
    show f.plain ++ rest f _ = f.plain ++ rest f s ++ data
    rw [rest_flow hf hsize hs, List.append_assoc]
    refine congrArg _ ?_
    calc rest f (s ++ (encrypt e data).1.out) = (ds ++ ds').flatten := rest_flow hf hsize (hs.append hflow)
      _ = ds.flatten ++ data := by rw [List.flatten_append, hflat]
  flush := by
    rintro e e' f s c x c' ps r ⟨he, hf, hs, ht⟩ hw htaken
    obtain ⟨ha, hp, rfl⟩ := flush_alike hw
    obtain ⟨hsends, hclear⟩ := flush_sends he _ _ _ hw htaken
    exact ⟨ha.same hp, ⟨he.alike ha, hf, hs, ht⟩, rfl, hsends.eq, hsends.cramped, hclear⟩
  decrypt := by
    rintro e e' f s c x c' n ps r ⟨he, hf, hs, ds, ht⟩ hn hw htaken
    obtain ⟨y, rfl, hu⟩ := decrypt_unseals he hsize ht hn _ _ _ hw htaken
    have hparted : e'.closed = true ↔ e.closed = true := by rw [hu.able.opened, he.opened]
    have hpaid := (frugal.decrypt (Nat.le_of_eq he.inflate) hw).2
    have hyields := hu.yields
    refine ⟨hu.eq, hu.cramped, y, rfl, hpaid, ?_, hparted, ⟨hu.able, hf, hs, hu.flow⟩, ?_⟩
    · cases y with
      | data text => exact (reads.data trivial hw).2 x
      | wouldBlock => exact (reads.wouldBlock trivial hw).2.2 x
      | peerClosed => exact absurd hyields id
    · cases y with
      | data text => exact hyields
      | wouldBlock => exact hyields
      | peerClosed => exact absurd hyields id

end Conduit.Tls.Toy
