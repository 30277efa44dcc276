import Snova.Model.Relay
import Snova.Properties.CipherContext

/-!
# The client hello on the hops of a chain

`Write` encrypts the first chunk of a TLS stream at an entry node only.  A middle node opens a
stream of its own, whose `write_bytes_` is zero as well, but it is no entry node, and it flags the
chunk with the client hello as not to be encrypted.  So the client hello is sealed on the first hop
and on no hop behind a middle node.
-/

namespace Snova

open CipherContext

/-- The first chunk of the stream is not exempt from encryption, and with a cipher the frame of the
chunk holds nothing but sealed bytes. -/
def Hop.ClientHelloSealed (hop : Hop) : Prop :=
  ∀ ev, hop.chunks.head? = some ev →
    ev.head.flags.bodyNoEncrypt = false ∧
      ∀ (A : Aead) (pb : Nanopb) (key : Bytes) (cipher : CipherContext) (outSize : ℕ),
        cipher.FromNew "chacha20_poly1305" key → (cipher.encrypt A pb ev outSize).rc = 0 →
          (cipher.encrypt A pb ev outSize).out =
            A.sealed (resize 32 key) (nonceOf cipher.encryptIv 12)
                (withLen pb ev).head.encode ++
              if ev.body.encoded pb = [] then []
              else A.sealed (resize 32 key) (nonceOf cipher.encryptIv 12) (ev.body.encoded pb)

variable {node first : RelayNode} {readedData : Bytes} {reads : List Bytes} {ctx : RelayContext}
  {hop : Hop}

/-! ## Frames -/

lemma encrypt_out_of_rc {A : Aead} {pb : Nanopb} {key : Bytes} {cipher : CipherContext}
    (hnew : cipher.FromNew "chacha20_poly1305" key) {ev : MuxEvent} {outSize : ℕ}
    (hrc : (cipher.encrypt A pb ev outSize).rc = 0) :
    (cipher.encrypt A pb ev outSize).out =
      sealedFrame A pb (resize 32 key) cipher.encryptIv ev := by
  have hspec := encrypt_spec A pb hnew.keyed ev outSize
  generalize cipher.encrypt A pb ev outSize = r at hspec hrc
  cases hspec with
  | fail rc ev' seals nonzero sub => exact absurd hrc nonzero
  | ok => rfl

/-- A chunk without the flag is sealed, of whatever size. -/
lemma Hop.clientHelloSealed_of_flag
    (h : ∀ ev, hop.chunks.head? = some ev → ev.head.flags.bodyNoEncrypt = false) :
    hop.ClientHelloSealed := by
  intro ev hev
  refine ⟨h ev hev, ?_⟩
  intro A pb key cipher outSize hnew hrc
  rw [encrypt_out_of_rc hnew hrc, sealedFrame]
  by_cases hbody : ev.body.encoded pb = []
  · simp [hbody]
  · rw [if_pos ⟨List.length_pos_iff.2 hbody, h ev hev⟩, if_neg hbody]

/-- A chunk with the flag follows its sealed head as it is. -/
lemma encrypt_out_of_flag {A : Aead} {pb : Nanopb} {key : Bytes} {cipher : CipherContext}
    (hnew : cipher.FromNew "chacha20_poly1305" key) {ev : MuxEvent} {outSize : ℕ}
    (hflag : ev.head.flags.bodyNoEncrypt = true)
    (hrc : (cipher.encrypt A pb ev outSize).rc = 0) :
    (cipher.encrypt A pb ev outSize).out =
      A.sealed (resize 32 key) (nonceOf cipher.encryptIv 12)
        (withLen pb ev).head.encode ++ ev.body.encoded pb := by
  rw [encrypt_out_of_rc hnew hrc, sealedFrame, if_neg]
  rintro ⟨-, hfalse⟩
  rw [hflag] at hfalse
  exact absurd hfalse (by decide)

/-! ## One node -/

@[simp]
lemma transferChunks_eq_nil {isEntryNode : Bool} {sid : UInt32} {st : SendStream} :
    transferChunks isEntryNode sid st reads = [] ↔ reads = [] := by
  cases reads <;> simp [transferChunks]

lemma head?_transferChunks {isEntryNode : Bool} {sid : UInt32} {st : SendStream} :
    (transferChunks isEntryNode sid st reads).head? =
      reads.head?.map (streamChunk isEntryNode sid st) := by
  cases reads <;> rfl

lemma streamChunk_flag_entry {sid : UInt32} {st : SendStream} (hfresh : st.writeBytes = 0)
    (buf : Bytes) : (streamChunk true sid st buf).head.flags.bodyNoEncrypt = false := by
  change (SessionState.chunkFlags true st).bodyNoEncrypt = false
  unfold SessionState.chunkFlags
  split
  · rw [if_pos ⟨hfresh, rfl⟩]
  · rfl

lemma streamChunk_flag {sid : UInt32} {st : SendStream} (htls : st.isTls = true) (buf : Bytes) :
    (streamChunk false sid st buf).head.flags.bodyNoEncrypt = true := by
  change (SessionState.chunkFlags false st).bodyNoEncrypt = true
  simp [SessionState.chunkFlags, htls]

/-- A node that is neither an entry node nor an exit node flags every chunk of a TLS stream. -/
lemma transferChunks_flag {sid : UInt32} {st : SendStream} (htls : st.isTls = true) :
    ∀ ev ∈ transferChunks false sid st reads, ev.head.flags.bodyNoEncrypt = true := by
  induction reads generalizing st with
  | nil => simp [transferChunks]
  | cons buf reads ih =>
      intro ev hev
      rw [transferChunks, List.mem_cons] at hev
      obtain rfl | hev := hev
      · exact streamChunk_flag htls buf
      · refine ih ?_ ev hev
        exact htls

/-- What a node that relays a stream sends to the next one. -/
lemma doRelay_eq (hrole : node.role ≠ .exit) (hdirect : ctx.direct = false) :
    doRelay node readedData reads ctx = some
      { openRequest := SessionState.openRequest ctx.remoteHost ctx.remotePort.toUInt32 ctx.isTcp
          ctx.isTls
        chunks := transferChunks (node.role = .entry) node.sid { made := true, isTls := ctx.isTls }
          ((if readedData = [] then [] else [readedData]) ++ reads) } := by
  unfold doRelay
  rw [if_neg]
  rintro (h | h)
  · exact hrole h
  · rw [hdirect] at h
    exact absurd h (by decide)

lemma doRelay_exit (hrole : node.role = .exit) : doRelay node readedData reads ctx = none := by
  unfold doRelay
  rw [if_pos (Or.inl hrole)]

/-- What a relayed stream carries: the `is_tls` of its request, and the data in chunks. -/
lemma doRelay_inv (h : doRelay node readedData reads ctx = some hop) :
    hop.openRequest.isTls = ctx.isTls ∧
      hop.chunks =
        transferChunks (node.role = .entry) node.sid { made := true, isTls := ctx.isTls }
          ((if readedData = [] then [] else [readedData]) ++ reads) := by
  unfold doRelay at h
  split at h
  · exact absurd h (by simp)
  · obtain rfl := Option.some.inj h
    exact ⟨rfl, rfl⟩

lemma doRelay_flag (hrole : node.role ≠ .entry) (htls : ctx.isTls = true)
    (h : doRelay node readedData reads ctx = some hop) :
    ∀ ev ∈ hop.chunks, ev.head.flags.bodyNoEncrypt = true := by
  rw [(doRelay_inv h).2, decide_eq_false hrole]
  exact transferChunks_flag htls

lemma doRelay_chunks_eq_nil (h : doRelay node readedData reads ctx = some hop) :
    hop.chunks = [] ↔ readedData = [] ∧ reads = [] := by
  rw [(doRelay_inv h).2, transferChunks_eq_nil, List.append_eq_nil_iff]
  by_cases hdata : readedData = [] <;> simp [hdata]

lemma doRelay_chunkBytes_eq_nil (h : doRelay node readedData reads ctx = some hop) :
    hop.chunks.filterMap (fun ev => ev.body.chunkBytes) = [] ↔ hop.chunks = [] := by
  rw [(doRelay_inv h).2]
  generalize (if readedData = [] then [] else [readedData]) ++ reads = all
  cases all <;> simp [transferChunks, streamChunk, MuxEvent.ofBody, EventBody.chunkBytes]

/-- The entry node does not flag its first chunk. -/
lemma relay_entry_sealed (hrole : first.role = .entry)
    (h : relay first readedData reads ctx = some hop) : hop.ClientHelloSealed := by
  apply Hop.clientHelloSealed_of_flag
  intro ev hev
  rw [(doRelay_inv h).2, decide_eq_true hrole, head?_transferChunks, Option.map_eq_some_iff] at hev
  obtain ⟨buf, -, rfl⟩ := hev
  exact streamChunk_flag_entry rfl buf

/-! ## Chains -/

/-- What the relaying node passes on from each hop to the next holds of all hops behind it. -/
lemma relayHops_induction {P : Hop → Prop} {nodes : List RelayNode}
    (step : ∀ node ∈ nodes, ∀ hop next,
      doRelay node [] (hop.chunks.filterMap fun ev => ev.body.chunkBytes)
        (relayHandler node.authUser hop.openRequest) = some next → P hop → P next)
    (h : P hop) : ∀ next ∈ relayHops nodes hop, P next := by
  induction nodes generalizing hop with
  | nil => simp [relayHops]
  | cons node nodes ih =>
      intro next hnext
      rw [relayHops] at hnext
      split at hnext
      · exact absurd hnext (by simp)
      · next relayed hrelay =>
          have hrelayed : P relayed := step node (by simp) hop relayed hrelay h
          rw [List.mem_cons] at hnext
          obtain rfl | hnext := hnext
          · exact hrelayed
          · exact ih (fun node hnode => step node (by simp [hnode])) hrelayed next hnext

lemma relayChain_eq (h : relay first readedData reads ctx = some hop) (nodes : List RelayNode) :
    relayChain first nodes readedData reads ctx = hop :: relayHops nodes hop := by
  unfold relayChain
  rw [h]

/-- Where nothing is sent, nothing is relayed. -/
lemma relayHops_empty (h : hop.chunks = []) (nodes : List RelayNode) :
    ∀ next ∈ relayHops nodes hop, next.chunks = [] := by
  refine relayHops_induction (P := fun hop => hop.chunks = []) ?_ h
  intro node _ hop next hrelay hempty
  rw [doRelay_chunks_eq_nil hrelay, hempty]
  exact ⟨rfl, rfl⟩

/-- A middle node sends the first chunk on, with the flag. -/
lemma relayHops_middle (hrole : node.role = .middle) (htls : hop.openRequest.isTls = true)
    (hchunks : hop.chunks.filterMap (fun ev => ev.body.chunkBytes) ≠ [])
    (nodes : List RelayNode) :
    ∃ next ∈ relayHops (node :: nodes) hop, ¬ next.ClientHelloSealed := by
  obtain ⟨next, hnext⟩ : ∃ next, doRelay node []
      (hop.chunks.filterMap fun ev => ev.body.chunkBytes)
      (relayHandler node.authUser hop.openRequest) = some next :=
    ⟨_, doRelay_eq (by simp [hrole]) rfl⟩
  refine ⟨next, by simp [relayHops, hnext], ?_⟩
  intro hsealed
  have hne : next.chunks ≠ [] := by
    rw [Ne, doRelay_chunks_eq_nil hnext]
    exact fun h => hchunks h.2
  have hhead : next.chunks.head? = some (next.chunks.head hne) := List.head?_eq_some_head hne
  have hflag := doRelay_flag (by simp [hrole]) htls hnext _ (List.head_mem hne)
  rw [(hsealed _ hhead).1] at hflag
  exact absurd hflag (by decide)

/-- The client hello is sealed on all hops of a chain just if the chain has no middle node (or
nothing is ever sent). -/
theorem client_hello_sealed_iff {middles : List RelayNode} {last : RelayNode}
    (hfirst : first.role = .entry) (hmiddles : ∀ node ∈ middles, node.role = .middle)
    (hlast : last.role = .exit) (htls : ctx.isTls = true) :
    (∀ hop ∈ relayChain first (middles ++ [last]) readedData reads ctx, hop.ClientHelloSealed) ↔
      middles = [] ∨ readedData = [] ∧ reads = [] := by
  obtain ⟨hop, hrelay⟩ : ∃ hop, relay first readedData reads ctx = some hop :=
    ⟨_, doRelay_eq (by simp [hfirst]) rfl⟩
  have hsealed : hop.ClientHelloSealed := relay_entry_sealed hfirst hrelay
  rw [relayChain_eq hrelay, List.forall_mem_cons]
  constructor
  · rintro ⟨-, hall⟩
    by_contra hcontra
    obtain ⟨hne, hdata⟩ := not_or.1 hcontra
    obtain ⟨node, nodes, rfl⟩ := List.exists_cons_of_ne_nil hne
    have hchunks : hop.chunks.filterMap (fun ev => ev.body.chunkBytes) ≠ [] := by
      rw [Ne, doRelay_chunkBytes_eq_nil hrelay, doRelay_chunks_eq_nil hrelay]
      exact hdata
    obtain ⟨next, hmem, hnot⟩ := relayHops_middle (hmiddles node (by simp))
      ((doRelay_inv hrelay).1.trans htls) hchunks (nodes ++ [last])
    exact hnot (hall next hmem)
  · rintro (rfl | hdata)
    · refine ⟨hsealed, ?_⟩
      simp [relayHops, doRelay_exit hlast]
    · refine ⟨hsealed, ?_⟩
      intro next hnext ev hev
      rw [relayHops_empty ((doRelay_chunks_eq_nil hrelay).2 hdata) _ next hnext] at hev
      exact absurd hev (by simp)

/-- An entry node and an exit node: one hop, with a sealed client hello. -/
theorem client_hello_sealed_entry_exit :
    (relayChain ⟨.entry, 1, []⟩ ([] ++ [⟨.exit, 2, []⟩]) [22, 3, 1] []
        ⟨[], [], 443, true, true, false⟩).length = 1 ∧
      ∀ hop ∈ relayChain ⟨.entry, 1, []⟩ ([] ++ [⟨.exit, 2, []⟩]) [22, 3, 1] []
        ⟨[], [], 443, true, true, false⟩, hop.ClientHelloSealed :=
  ⟨rfl, (client_hello_sealed_iff rfl (by simp) rfl rfl).2 (Or.inl rfl)⟩

/-- Behind a middle node the client hello follows the sealed head of its frame in clear. -/
theorem client_hello_in_clear :
    (∃ hop ∈ relayChain ⟨.entry, 1, []⟩ ([⟨.middle, 2, []⟩] ++ [⟨.exit, 3, []⟩]) [22, 3, 1] []
        ⟨[], [], 443, true, true, false⟩,
      ∃ ev, hop.chunks.head? = some ev ∧ ev.head.flags.bodyNoEncrypt = true ∧
        ∀ (A : Aead) (pb : Nanopb) (key : Bytes) (cipher : CipherContext) (outSize : ℕ),
          cipher.FromNew "chacha20_poly1305" key → (cipher.encrypt A pb ev outSize).rc = 0 →
            (cipher.encrypt A pb ev outSize).out =
              A.sealed (resize 32 key) (nonceOf cipher.encryptIv 12)
                (withLen pb ev).head.encode ++ [22, 3, 1]) ∧
      ¬ ∀ hop ∈ relayChain ⟨.entry, 1, []⟩ ([⟨.middle, 2, []⟩] ++ [⟨.exit, 3, []⟩]) [22, 3, 1] []
        ⟨[], [], 443, true, true, false⟩, hop.ClientHelloSealed := by
  have hex : ∃ hop ∈ relayChain ⟨.entry, 1, []⟩ ([⟨.middle, 2, []⟩] ++ [⟨.exit, 3, []⟩])
      [22, 3, 1] [] ⟨[], [], 443, true, true, false⟩,
      hop.chunks.head? =
        some (streamChunk false 2 { made := true, isTls := true } [22, 3, 1]) := by
    refine ⟨_, List.mem_cons_of_mem _ (List.mem_cons_self), ?_⟩
    rfl
  obtain ⟨hop, hmem, hhead⟩ := hex
  have hflag := @streamChunk_flag 2 { made := true, isTls := true } rfl [22, 3, 1]
  constructor
  · refine ⟨hop, hmem, _, hhead, hflag, ?_⟩
    intro A pb key cipher outSize hnew hrc
    rw [encrypt_out_of_flag hnew hflag hrc]
    rfl
  · intro hall
    have hsealed := (hall hop hmem _ hhead).1
    rw [hflag] at hsealed
    exact absurd hsealed (by decide)

end Snova
