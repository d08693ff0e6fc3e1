import ChisLink.SioTransport

/-!
# The two ways of a payload

The storage client moves a long payload through the serial interrupt and a short one
word by word. Both ways are compared for the four kinds of payloads and for any order
in which words are clocked and the caller looks. The words that are sent may differ
behind the end of a payload, and where a payload is received.
-/

namespace ChisLink.SioAgreement

open WireProtocol SioMemory SioTransport
open StorageClient (StoreCall payloadBytes writerCalls windowWords directWindowWord)
open StorageBoundary (words_eq_wordCount)

section Agreement

/-- A payload that is transferred. -/
inductive Transfer where
  /-- Received into memory. -/
  | read (dst : UInt32)
  /-- Received through the word writer. -/
  | readWriter
  /-- Sent from the bytes of a window. -/
  | write (window : MemoryWindow) (offset : UInt32)
  /-- Sent from a window as it is to be read. -/
  | writeWindow (window : MemoryWindow) (offset : UInt32)

/-- What is sent lies in its window, as `cl_storage_write_direct` has checked. -/
def Transfer.Inside (length : UInt32) : Transfer → Prop
  | .read _ => True
  | .readWriter => True
  | .write window offset => offset≤window.length ∧ length≤window.length-offset
  | .writeWindow window offset => offset≤window.length ∧ length≤window.length-offset

/-- The transfer through the interrupt. -/
def Transfer.fast (incoming : Incoming) (length : UInt32) (schedule : List Tick)
    (s : Machine) : Transfer → Option (ℤ×Machine)
  | .read dst => sioReadPayload incoming dst length schedule s
  | .readWriter => sioReadPayloadWriter incoming length schedule s
  | .write window offset =>
    sioWritePayload incoming (window.data+offset) length schedule s
  | .writeWindow window offset =>
    sioWriteWindowPayload incoming window offset length schedule s

/-- The transfer word by word. -/
def Transfer.words (incoming : Incoming) (length : UInt32) (io : Io) : Transfer → Io
  | .read dst => readPayloadWords incoming dst length io
  | .readWriter => readPayloadWriterWords incoming length io
  | .write window offset => writePayloadWords incoming window offset length io
  | .writeWindow window offset => writePayloadWords incoming window offset length io

/-- The bytes of a payload that went over the link. -/
def sentBytes (length : UInt32) (before after : Io) : List UInt8 :=
  payloadBytes ((after.exchanged.drop before.exchanged.length).map Prod.fst) length

/-- Both ways sent the bytes of the payload, if it was sent. -/
def Transfer.Sent (length : UInt32) (before fast words : Io) : Transfer → Prop
  | .read _ => True
  | .readWriter => True
  | .write window offset =>
    sentBytes length before fast=
        bytesFrom before.memory (window.data+offset) length.toNat ∧
      sentBytes length before words=
        bytesFrom before.memory (window.data+offset) length.toNat
  | .writeWindow window offset =>
    sentBytes length before fast=
        bytesFrom before.memory (window.data+offset) length.toNat ∧
      sentBytes length before words=
        bytesFrom before.memory (window.data+offset) length.toNat

/-- The interrupt path can end well, and whenever it does it has done what the word
loop does: as many words, the same memory, the same calls of the writer and the same
bytes of the payload on the link. -/
def Transfer.Agrees (incoming : Incoming) (length : UInt32) (s : Machine)
    (transfer : Transfer) : Prop :=
  (∃ schedule out,transfer.fast incoming length schedule s=some (0,out)) ∧
    ∀ schedule out,transfer.fast incoming length schedule s=some (0,out) →
      Alike out.io (transfer.words incoming length s.io) ∧
        transfer.Sent length s.io out.io (transfer.words incoming length s.io)

variable {incoming : Incoming} {length : UInt32} {s : Machine}

theorem stores_none : Stores fun _ _ io => io := fun _ _ _ => rfl

/-- The bytes on the link are those of the memory if every word begins with its own. -/
theorem sentBytes_perform {word : ℕ → UInt32} {io : Io} {src : UInt32} {n : ℕ}
    (hn : length.toNat≤4*n)
    (h : ∀ k,k<n → (storeLe32 (word k) 4).take (length.toNat-4*k)=
      bytesFrom io.memory (src+UInt32.ofNat (4*k)) (min 4 (length.toNat-4*k))) :
    sentBytes length io (perform incoming word (fun _ _ io => io) n io)=
      bytesFrom io.memory src length.toNat := by
  have hfst : (Prod.fst ∘ fun i => (word i,incoming (io.exchanged.length+i)))=word := rfl
  unfold sentBytes payloadBytes
  rw [exchanged_perform stores_none,List.drop_left,List.map_map,hfst,take_words io.memory h,
    Nat.min_eq_left hn]

theorem storeMemory_valid (dst word available : UInt32) (io : Io) :
    storeMemory dst word (if 4<available then 4 else available) io=
      storeMemory dst word available io := by
  have hstore : storeLe32 word (if 4<available then 4 else available).toNat=
      storeLe32 word available.toNat := by
    have hfour : (4 : UInt32).toNat=4 := rfl
    have hmin : min 4 (if 4<available then 4 else available).toNat=
        min 4 available.toNat := by
      by_cases h : 4<available
      · have hle := UInt32.lt_iff_toNat_lt.mp h
        rw [if_pos h,hfour]
        rw [hfour] at hle
        omega
      · rw [if_neg h]
    unfold storeLe32
    rw [hmin]
  unfold storeMemory fastStoreLe32
  rw [hstore]

theorem rxStore_stores (t : FastTransport) : Stores (rxStore t) := by
  intro k word io
  unfold rxStore
  dsimp only
  split
  · split <;> rfl
  · rfl

/-- The words of the sending handler. -/
def txWord (memory : Memory) (src length : UInt32) (k : ℕ) : UInt32 :=
  let offset := UInt32.ofNat (4*k)
  fastLoadLe32 memory (src+offset) (if offset<length then length-offset else 0)

/-- The words of the handler that sends from a window. -/
def windowTxWord (memory : Memory) (window : MemoryWindow) (base length : UInt32) (k : ℕ) :
    UInt32 :=
  let offset := UInt32.ofNat (4*k)
  fastWindowLoadLe32 memory window (base+offset)
    (if offset<length then length-offset else 0)

/-- What a transfer through the interrupt does. -/
def Transfer.Does (incoming : Incoming) (length : UInt32) (s : Machine) (sent : ℕ → UInt32)
    (store : ℕ → UInt32 → Io → Io) (transfer : Transfer) : Prop :=
  (∃ schedule out,transfer.fast incoming length schedule s=some (0,out)) ∧
    ∀ schedule out,transfer.fast incoming length schedule s=some (0,out) →
      out.io=perform incoming sent store (fastWords length) s.io

/-- The transport while it receives into memory. -/
def readTransport (dst length : UInt32) (s : Machine) : FastTransport :=
  (prepare length .rx s fun t => {t with fastRxDst := dst}).transport

/-- The transport while it receives through the writer. -/
def writerTransport (length : UInt32) (s : Machine) : FastTransport :=
  (prepare length .rx s fun t => {t with fastRxStoreWord := true}).transport

theorem read_does (hzero : length≠0) (dst : UInt32) :
    (Transfer.read dst).Does incoming length s (fun _ => s.transport.idleWord)
      (rxStore (readTransport dst length s)) := by
  unfold Transfer.Does Transfer.fast sioReadPayload
  simp only [if_neg hzero]
  exact rx_outcome (t := readTransport dst length s) rfl rfl rfl rfl

theorem readWriter_does (hzero : length≠0) :
    Transfer.readWriter.Does incoming length s (fun _ => s.transport.idleWord)
      (rxStore (writerTransport length s)) := by
  unfold Transfer.Does Transfer.fast sioReadPayloadWriter
  simp only [if_neg hzero]
  exact rx_outcome (t := writerTransport length s) rfl rfl rfl rfl

theorem write_does (hzero : length≠0) (window : MemoryWindow) (offset : UInt32) :
    (Transfer.write window offset).Does incoming length s
      (txWord s.io.memory (window.data+offset) length) (fun _ _ io => io) := by
  unfold Transfer.Does Transfer.fast sioWritePayload
  simp only [if_neg hzero]
  refine tx_outcome (t := (prepare length .tx s fun t =>
    {t with fastTxSrc := window.data+offset}).transport) ?_ ?_ rfl rfl rfl
  · intro s hs
    unfold serialIrq
    rw [hs]
  · intro k s' hmemory ht
    unfold fastTxSendNext
    dsimp only
    rw [hmemory,ht]
    dsimp only
    rw [offset_succ]
    rfl

theorem writeWindow_does (hzero : length≠0) {window : MemoryWindow} {offset : UInt32}
    (hinside : (Transfer.writeWindow window offset).Inside length) :
    (Transfer.writeWindow window offset).Does incoming length s
      (windowTxWord s.io.memory window offset length) (fun _ _ io => io) := by
  have hin : ¬(window.length<offset ∨ window.length-offset<length) := by
    rintro (h | h)
    · exact UInt32.not_le.mpr h hinside.1
    · exact UInt32.not_le.mpr h hinside.2
  unfold Transfer.Does Transfer.fast sioWriteWindowPayload
  simp only [if_neg hin,if_neg hzero]
  refine tx_outcome (t := (prepare length .windowTx s fun t =>
    {t with fastTxWindow := some window,fastTxWindowOffset := offset}).transport)
    ?_ ?_ rfl rfl rfl
  · intro s hs
    unfold serialIrq
    rw [hs]
  · intro k s' hmemory ht
    unfold fastWindowTxSendNext
    dsimp only
    rw [hmemory,ht]
    dsimp only
    rw [offset_succ]
    rfl

section Lengths

variable {k : ℕ}

theorem offset_lt (hzero : length≠0) (hle : length≤0xfffffffc) (hk : k<fastWords length) :
    4*k<length.toNat := by
  have hwords : fastWords length=wordCount length := by
    rw [(fastWords_eq hzero).mpr hle,words_eq_wordCount.mpr hle]
  unfold wordCount at hwords
  omega

theorem remaining_eq (hzero : length≠0) (hle : length≤0xfffffffc)
    (hk : k<fastWords length) :
    UInt32.ofNat (4*k)<length ∧ (length-UInt32.ofNat (4*k)).toNat=length.toNat-4*k := by
  have hoffset := ofNat_offset (Nat.le_of_lt hk)
  have hlt : UInt32.ofNat (4*k)<length := by
    rw [UInt32.lt_iff_toNat_lt,hoffset]
    exact offset_lt hzero hle hk
  have hsub := UInt32.toNat_sub_of_le _ _ (UInt32.le_of_lt hlt)
  rw [hoffset] at hsub
  exact ⟨hlt,hsub⟩

/-- Where a word of the payload lies in its window. -/
theorem window_offset {window : MemoryWindow} {base : UInt32} (hzero : length≠0)
    (hle : length≤0xfffffffc) (hk : k<fastWords length)
    (hinside : (Transfer.writeWindow window base).Inside length) :
    base+UInt32.ofNat (4*k)<window.length ∧
      length.toNat-4*k≤(window.length-(base+UInt32.ofNat (4*k))).toNat := by
  have hoffset := ofNat_offset (Nat.le_of_lt hk)
  have hshort := offset_lt hzero hle hk
  have hmax := window.length.toNat_lt
  have hbase := UInt32.le_iff_toNat_le.mp hinside.1
  have hroom := UInt32.le_iff_toNat_le.mp hinside.2
  rw [UInt32.toNat_sub_of_le _ _ hinside.1] at hroom
  have hsum : (base+UInt32.ofNat (4*k)).toNat=base.toNat+4*k := by
    rw [UInt32.toNat_add,hoffset]
    omega
  have hlt : base+UInt32.ofNat (4*k)<window.length := by
    rw [UInt32.lt_iff_toNat_lt,hsum]
    omega
  refine ⟨hlt,?_⟩
  rw [UInt32.toNat_sub_of_le _ _ (UInt32.le_of_lt hlt),hsum]
  omega

/-- The sending handler puts the bytes of the payload at the front of its words. -/
theorem take_txWord (memory : Memory) (src : UInt32) (hzero : length≠0)
    (hle : length≤0xfffffffc) (hk : k<fastWords length) :
    (storeLe32 (txWord memory src length k) 4).take (length.toNat-4*k)=
      bytesFrom memory (src+UInt32.ofNat (4*k)) (min 4 (length.toNat-4*k)) := by
  obtain ⟨hlt,hleft⟩ := remaining_eq hzero hle hk
  unfold txWord
  dsimp only
  rw [if_pos hlt]
  apply take_fastLoadLe32
  rw [hleft]
  exact Nat.min_le_right ..

/-- So does the handler that sends from a window. -/
theorem take_windowTxWord (memory : Memory) {window : MemoryWindow} {base : UInt32}
    (hzero : length≠0) (hle : length≤0xfffffffc) (hk : k<fastWords length)
    (hinside : (Transfer.writeWindow window base).Inside length) :
    (storeLe32 (windowTxWord memory window base length k) 4).take (length.toNat-4*k)=
      bytesFrom memory (window.data+base+UInt32.ofNat (4*k))
        (min 4 (length.toNat-4*k)) := by
  obtain ⟨hlt,hleft⟩ := remaining_eq hzero hle hk
  unfold windowTxWord
  dsimp only
  rw [if_pos hlt,fastWindowLoadLe32_eq _ _ _ (window_offset hzero hle hk hinside).1,
    ← UInt32.add_assoc]
  apply take_fastLoadLe32
  rw [hleft]
  exact Nat.min_le_right ..

/-- So does the storage client, which does not stop at the end of the payload. -/
theorem take_memoryWindowWord (memory : Memory) {window : MemoryWindow} {base : UInt32}
    (hzero : length≠0) (hle : length≤0xfffffffc) (hk : k<fastWords length)
    (hinside : (Transfer.writeWindow window base).Inside length) :
    (storeLe32 (memoryWindowWord memory window (base+UInt32.ofNat (4*k))) 4).take
        (length.toNat-4*k)=
      bytesFrom memory (window.data+base+UInt32.ofNat (4*k))
        (min 4 (length.toNat-4*k)) := by
  obtain ⟨hlt,hleft⟩ := window_offset hzero hle hk hinside
  rw [memoryWindowWord_eq _ _ hlt,← UInt32.add_assoc]
  apply take_fastLoadLe32
  omega

theorem length_le_words (hzero : length≠0) (hle : length≤0xfffffffc) :
    length.toNat≤4*fastWords length := by
  rw [(fastWords_eq hzero).mpr hle,words_eq_wordCount.mpr hle]
  unfold wordCount
  omega

end Lengths

/-- Sent words leave memory and writer alone on both ways. -/
theorem alike_sent (incoming : Incoming) (word word' : ℕ → UInt32) (n : ℕ) (io : Io) :
    Alike (perform incoming word (fun _ _ io => io) n io)
      (perform incoming word' (fun _ _ io => io) n io) :=
  alike_perform fun _ _ _ _ _ h => h

/-- Memory is stored to in the same way on both ways. -/
theorem alike_read (dst : UInt32) (n : ℕ) :
    Alike (perform incoming (fun _ => s.transport.idleWord)
        (rxStore (readTransport dst length s)) n s.io)
      (perform incoming (fun _ => nopWord) (memoryStore length dst) n s.io) := by
  refine alike_perform fun k _ word io io' h => ?_
  have hstore : rxStore (readTransport dst length s) k word io=
      memoryStore length dst k word io := by
    unfold memoryStore
    rw [← storeMemory_valid]
    rfl
  rw [hstore]
  unfold memoryStore
  split
  · refine ⟨h.length,?_,h.calls⟩
    unfold storeMemory
    dsimp only
    rw [h.memory]
  · exact h

/-- The writer is called in the same way on both ways. -/
theorem alike_writer (hzero : length≠0) (hle : length≤0xfffffffc) :
    Alike (perform incoming (fun _ => s.transport.idleWord)
        (rxStore (writerTransport length s)) (fastWords length) s.io)
      (perform incoming (fun _ => nopWord) (writerStore length) (fastWords length)
        s.io) := by
  refine alike_perform fun k hk word io io' h => ?_
  have hlt : UInt32.ofNat (4*k)<(writerTransport length s).fastLength :=
    (remaining_eq hzero hle hk).1
  unfold rxStore
  dsimp only
  rw [if_pos hlt]
  refine ⟨h.length,h.memory,?_⟩
  change io.calls++_=io'.calls++_
  rw [h.calls]
  rfl

/-- Nothing happens for an empty payload. -/
theorem agrees_empty (transfer : Transfer) (hinside : transfer.Inside 0) :
    transfer.Agrees incoming 0 s := by
  have hfast : ∀ schedule,transfer.fast incoming 0 schedule s=some (0,s) := by
    intro schedule
    cases transfer with
    | read dst => rfl
    | readWriter => rfl
    | write window offset => rfl
    | writeWindow window offset =>
      have hin : ¬(window.length<offset ∨ window.length-offset<0) := by
        rintro (h | h)
        · exact UInt32.not_le.mpr h hinside.1
        · exact UInt32.not_le.mpr h hinside.2
      unfold Transfer.fast sioWriteWindowPayload
      dsimp only
      rw [if_neg hin,if_pos rfl]
  have hwords : transfer.words incoming 0 s.io=s.io := by
    cases transfer <;> rfl
  refine ⟨⟨[],s,hfast []⟩,fun schedule out hout => ?_⟩
  rw [hfast] at hout
  cases hout
  rw [hwords]
  refine ⟨⟨rfl,rfl,rfl⟩,?_⟩
  cases transfer with
  | read dst => trivial
  | readWriter => trivial
  | write window offset => exact ⟨rfl,rfl⟩
  | writeWindow window offset => exact ⟨rfl,rfl⟩

/-- Every payload that is not among the three longest is transferred alike. -/
theorem agrees_of_le (transfer : Transfer) (hinside : transfer.Inside length)
    (hzero : length≠0) (hle : length≤0xfffffffc) : transfer.Agrees incoming length s := by
  have hwords : (clpAlignedLength length).toNat/4=fastWords length :=
    ((fastWords_eq hzero).mpr hle).symm
  have hroom := length_le_words hzero hle
  cases transfer with
  | read dst =>
    obtain ⟨hends,hdoes⟩ : (Transfer.read dst).Does incoming length s _ _ :=
      read_does hzero dst
    refine ⟨hends,fun schedule out hout => ⟨?_,trivial⟩⟩
    unfold Transfer.words
    dsimp only
    rw [hdoes schedule out hout,readPayloadWords_eq,hwords]
    exact alike_read dst _
  | readWriter =>
    obtain ⟨hends,hdoes⟩ : Transfer.readWriter.Does incoming length s _ _ :=
      readWriter_does hzero
    refine ⟨hends,fun schedule out hout => ⟨?_,trivial⟩⟩
    unfold Transfer.words
    dsimp only
    rw [hdoes schedule out hout,readPayloadWriterWords_eq,hwords]
    exact alike_writer hzero hle
  | write window offset =>
    obtain ⟨hends,hdoes⟩ : (Transfer.write window offset).Does incoming length s _ _ :=
      write_does hzero window offset
    refine ⟨hends,fun schedule out hout => ?_⟩
    unfold Transfer.words Transfer.Sent
    dsimp only
    rw [hdoes schedule out hout,writePayloadWords_eq,hwords]
    exact ⟨alike_sent ..,
      sentBytes_perform hroom fun k hk => take_txWord _ _ hzero hle hk,
      sentBytes_perform hroom fun k hk => take_memoryWindowWord _ hzero hle hk hinside⟩
  | writeWindow window offset =>
    obtain ⟨hends,hdoes⟩ : (Transfer.writeWindow window offset).Does incoming length s _ _ :=
      writeWindow_does hzero hinside
    refine ⟨hends,fun schedule out hout => ?_⟩
    unfold Transfer.words Transfer.Sent
    dsimp only
    rw [hdoes schedule out hout,writePayloadWords_eq,hwords]
    exact ⟨alike_sent ..,
      sentBytes_perform hroom fun k hk => take_windowTxWord _ hzero hle hk hinside,
      sentBytes_perform hroom fun k hk => take_memoryWindowWord _ hzero hle hk hinside⟩

/-- Both ways exchange as many words only if the rounded length does not wrap around. -/
theorem le_of_lengths {sent sent' : ℕ → UInt32} {store store' : ℕ → UInt32 → Io → Io}
    {transfer : Transfer} (hzero : length≠0) (hstore : Stores store)
    (hstore' : Stores store') (hdoes : transfer.Does incoming length s sent store)
    (hwords : transfer.words incoming length s.io=
      perform incoming sent' store' ((clpAlignedLength length).toNat/4) s.io)
    (h : transfer.Agrees incoming length s) : length≤0xfffffffc := by
  obtain ⟨schedule,out,hout⟩ := h.1
  have hsame := (h.2 schedule out hout).1.length
  rw [hdoes.2 schedule out hout,hwords,length_perform hstore,length_perform hstore'] at hsame
  exact (fastWords_eq hzero).mp (by omega)

theorem le_of_agrees (transfer : Transfer) (hinside : transfer.Inside length)
    (hzero : length≠0) (h : transfer.Agrees incoming length s) : length≤0xfffffffc := by
  cases transfer with
  | read dst =>
    exact le_of_lengths hzero (rxStore_stores _) (memoryStore_stores _ _) (read_does hzero dst)
      (readPayloadWords_eq ..) h
  | readWriter =>
    exact le_of_lengths hzero (rxStore_stores _) (writerStore_stores _) (readWriter_does hzero)
      (readPayloadWriterWords_eq ..) h
  | write window offset =>
    exact le_of_lengths hzero stores_none stores_none (write_does hzero window offset)
      (writePayloadWords_eq ..) h
  | writeWindow window offset =>
    exact le_of_lengths hzero stores_none stores_none (writeWindow_does hzero hinside)
      (writePayloadWords_eq ..) h

/-- A payload is transferred through the interrupt as it is word by word exactly if its
length can be rounded up to whole words in thirty-two bits. -/
theorem payload_paths_agree_iff (transfer : Transfer) (incoming : Incoming)
    (length : UInt32) (s : Machine) (hinside : transfer.Inside length) :
    transfer.Agrees incoming length s ↔ length≤0xfffffffc := by
  by_cases hzero : length=0
  · subst hzero
    exact iff_of_true (agrees_empty transfer hinside) (by decide)
  · exact ⟨le_of_agrees transfer hinside hzero,agrees_of_le transfer hinside hzero⟩

/-- A machine that is not transferring anything. -/
def idleMachine : Machine where
  transport := ⟨false,false,false,0,0,false,0,none,0,0,0,nopWord,0⟩
  gFastTransport := false
  direct := none
  sioData32 := nopWord
  started := false
  io := ⟨[],fun address => address.toUInt8,[]⟩

/-- Five bytes of the cartridge at an even address, in a window that has one more. -/
theorem payload_paths_agree_iff_rom :
    (Transfer.writeWindow ⟨0x08000001,7,.rom16Le⟩ 1).Agrees (fun _ => 0) 5 idleMachine :=
  (payload_paths_agree_iff (.writeWindow ⟨0x08000001,7,.rom16Le⟩ 1) (fun _ => 0) 5
    idleMachine ⟨by decide,by decide⟩).mpr (by decide)

/-- The interrupt path receives a word of a payload for which the storage client
receives none. -/
theorem longest_payloads_differ :
    ¬∀ (transfer : Transfer) (incoming : Incoming) (length : UInt32) (s : Machine),
      transfer.Inside length → transfer.Agrees incoming length s := by
  intro h
  have hfast : (Transfer.readWriter.fast (fun _ => 0) 0xfffffffd [.clock,.poll 0]
      idleMachine).map (fun out => (out.1,out.2.io.exchanged.length))=some (0,1) := by
    decide +kernel
  have hwords : (Transfer.readWriter.words (fun _ => 0) 0xfffffffd
      idleMachine.io).exchanged.length=0 := by decide +kernel
  obtain ⟨⟨code,out⟩,hout,hpair⟩ := Option.map_eq_some_iff.mp hfast
  have hcode : code=0 := congrArg Prod.fst hpair
  have hone : out.io.exchanged.length=1 := congrArg Prod.snd hpair
  subst hcode
  have hsame := ((h .readWriter (fun _ => 0) 0xfffffffd idleMachine trivial).2
    [.clock,.poll 0] out hout).1.length
  rw [hone,hwords] at hsame
  exact Nat.one_ne_zero hsame

section Storage

/-- The words that came over the link. -/
def receivedWords (before after : Io) : List UInt32 :=
  (after.exchanged.drop before.exchanged.length).map Prod.snd

/-- The words that went over the link. -/
def sentWords (before after : Io) : List UInt32 :=
  (after.exchanged.drop before.exchanged.length).map Prod.fst

variable {sent : ℕ → UInt32} {store : ℕ → UInt32 → Io → Io} {io : Io} {n : ℕ}

theorem receivedWords_perform (h : Stores store) :
    receivedWords io (perform incoming sent store n io)=
      (List.range n).map fun k => incoming (io.exchanged.length+k) := by
  unfold receivedWords
  rw [exchanged_perform h,List.drop_left,List.map_map]
  rfl

theorem sentWords_perform (h : Stores store) :
    sentWords io (perform incoming sent store n io)=(List.range n).map sent := by
  unfold sentWords
  rw [exchanged_perform h,List.drop_left,List.map_map]
  rfl

/-- Word by word, a window is sent as the storage client sends it. -/
theorem writePayloadWords_sent (window : MemoryWindow) (offset : UInt32) :
    sentWords io (writePayloadWords incoming window offset length io)=
      windowWords (window.view io.memory) offset length := by
  rw [writePayloadWords_eq,sentWords_perform stores_none]
  unfold windowWords
  refine List.map_congr_left fun k _ => ?_
  rw [directWindowWord_view]

theorem aligned_pos_le {length : UInt32} {k : ℕ} (h : k<(clpAlignedLength length).toNat/4) :
    length≠0 ∧ fastWords length=(clpAlignedLength length).toNat/4 := by
  refine ⟨?_,?_⟩
  · rintro rfl
    have hnone : (clpAlignedLength 0).toNat/4=0 := by decide
    omega
  · unfold fastWords
    omega

theorem valid_toNat (available : UInt32) :
    (if 4<available then 4 else available).toNat=min 4 available.toNat := by
  have hfour : (4 : UInt32).toNat=4 := rfl
  by_cases h : 4<available
  · have hle := UInt32.lt_iff_toNat_lt.mp h
    rw [if_pos h,hfour]
    rw [hfour] at hle
    omega
  · have hle := UInt32.le_iff_toNat_le.mp (UInt32.not_lt.mp h)
    rw [if_neg h]
    rw [hfour] at hle
    omega

/-- The calls of a transfer that calls the writer for each word. -/
theorem calls_perform (call : ℕ → UInt32 → StoreCall) (h : Stores store)
    (hcall : ∀ k,k<n → ∀ word io,(store k word io).calls=io.calls++[call k word]) :
    (perform incoming sent store n io).calls=io.calls++
      (List.range n).map fun k => call k (incoming (io.exchanged.length+k)) := by
  induction n with
  | zero => exact (List.append_nil _).symm
  | succ n ih =>
    unfold perform
    dsimp only
    rw [hcall n (Nat.lt_succ_self n)]
    unfold exchange
    dsimp only
    rw [ih fun k hk => hcall k (by omega),length_perform h,List.range_succ,List.map_append,
      List.append_assoc]
    rfl

theorem writerCalls_range (word : ℕ → UInt32) (n : ℕ) :
    writerCalls ((List.range n).map word) length=
      (List.range n).map fun k => ⟨4*k,word k,min 4 (length.toNat-4*k)⟩ := by
  unfold writerCalls
  refine List.ext_getElem ?_ fun i hi hi' => ?_
  · simp only [List.length_map,List.length_zipIdx,List.length_range]
  · simp only [List.getElem_map,List.getElem_zipIdx,List.getElem_range,Nat.zero_add]

/-- Word by word, the writer is called as the storage client calls it. -/
theorem readPayloadWriterWords_calls :
    (readPayloadWriterWords incoming length io).calls=io.calls++
      writerCalls (receivedWords io (readPayloadWriterWords incoming length io)) length := by
  rw [readPayloadWriterWords_eq,receivedWords_perform (writerStore_stores _),
    writerCalls_range]
  refine calls_perform (fun k word => ⟨4*k,word,min 4 (length.toNat-4*k)⟩)
    (writerStore_stores _) fun k hk word io => ?_
  obtain ⟨hzero,hwords⟩ := aligned_pos_le hk
  have hle := (fastWords_eq hzero).mp hwords
  have hlast : k<fastWords length := by omega
  obtain ⟨-,hleft⟩ := remaining_eq hzero hle hlast
  unfold writerStore storeWord
  dsimp only
  rw [valid_toNat,hleft,ofNat_offset hlast.le]

theorem writeBytes_append (dst : UInt32) (front rest : List UInt8) (memory : Memory) :
    writeBytes dst (front++rest) memory=
      writeBytes (dst+UInt32.ofNat front.length) rest (writeBytes dst front memory) := by
  induction front generalizing dst memory with
  | nil =>
    have hzero : dst+UInt32.ofNat ([] : List UInt8).length=dst := UInt32.add_zero dst
    rw [hzero]
    rfl
  | cons byte front ih =>
    have hnext : dst+1+UInt32.ofNat front.length=
        dst+UInt32.ofNat (byte::front).length := by
      rw [List.length_cons,Nat.add_comm,UInt32.ofNat_add,UInt32.add_assoc]
      rfl
    rw [← hnext]
    exact ih (dst+1) (Function.update memory dst byte)

/-- As many bytes of a word as there is room for. -/
theorem storeLe32_eq_take (word : UInt32) (available : ℕ) :
    storeLe32 word available=(storeLe32 word 4).take available := by
  unfold storeLe32
  rw [← List.map_take,List.take_range,Nat.min_self,Nat.min_comm]

/-- A word more of a payload that is not complete. -/
theorem payloadBytes_succ (length : UInt32) (word : ℕ → UInt32) {n : ℕ}
    (h : 4*n≤length.toNat) :
    payloadBytes ((List.range (n+1)).map word) length=
        payloadBytes ((List.range n).map word) length++
          storeLe32 (word n) (length.toNat-4*n) ∧
      (payloadBytes ((List.range n).map word) length).length=4*n := by
  obtain ⟨flat,hflat⟩ : ∃ flat,flat=((List.range n).map word).flatMap
      fun word => storeLe32 word 4 := ⟨_,rfl⟩
  have hfour : ∀ w,(storeLe32 w 4).length=4 := fun _ => rfl
  have hlength : flat.length=4*n := by
    rw [hflat,List.length_flatMap,List.map_congr_left fun w _ => hfour w]
    simp only [List.map_const',List.sum_replicate_nat,List.length_map,List.length_range,
      Nat.mul_comm]
  have hfront : flat.take length.toNat=flat := List.take_of_length_le (by omega)
  unfold payloadBytes
  rw [List.range_succ,List.map_append,List.flatMap_append,← hflat,List.take_append,hfront,
    hlength,storeLe32_eq_take,List.map_singleton,List.flatMap_singleton]
  exact ⟨rfl,rfl⟩

/-- Word by word, memory receives the bytes that the storage client takes. -/
theorem readPayloadWords_memory (dst : UInt32) :
    (readPayloadWords incoming dst length io).memory=
      writeBytes dst (payloadBytes
        (receivedWords io (readPayloadWords incoming dst length io)) length) io.memory := by
  rw [readPayloadWords_eq,receivedWords_perform (memoryStore_stores _ _)]
  have hmemory : ∀ n,n≤(clpAlignedLength length).toNat/4 →
      (perform incoming (fun _ => nopWord) (memoryStore length dst) n io).memory=
        writeBytes dst (payloadBytes ((List.range n).map fun k =>
          incoming (io.exchanged.length+k)) length) io.memory := by
    intro n hn
    induction n with
    | zero =>
      have hnil : payloadBytes [] length=[] := List.take_nil
      rw [List.range_zero,List.map_nil,hnil]
      rfl
    | succ n ih =>
      obtain ⟨hzero,hwords⟩ := aligned_pos_le (Nat.lt_of_succ_le hn)
      have hle := (fastWords_eq hzero).mp hwords
      have hk : n<fastWords length := by omega
      obtain ⟨hlt,hleft⟩ := remaining_eq hzero hle hk
      obtain ⟨hbytes,hlength⟩ := payloadBytes_succ length
        (fun k => incoming (io.exchanged.length+k)) (offset_lt hzero hle hk).le
      rw [hbytes,writeBytes_append,hlength,← ih (by omega),← hleft,perform_succ,
        memoryStore_memory _ _ _ _ hlt,length_perform (memoryStore_stores _ _)]
      rfl
  exact hmemory _ (le_refl _)

end Storage

end Agreement

end ChisLink.SioAgreement
