import ChisLink.AnsweringDevice
import ChisLink.ClientExchange

/-!
# Exchanges with a device that answers

Rules for the operations of the network and Bluetooth clients when the device answers
every command. Each way to end an exchange takes the whole payload of the answer or
leaves it out, so that the device is afterwards where its answer has brought it.
-/

namespace ChisLink.AnsweredExchange

open DriverPrograms WireProtocol StorageClient StorageBoundary WireCommands ClientExchange
  AnsweringDevice
open StreamServer (wordsOf wordsOf_succ payloadWords_eq)

variable {δ α β : Type} {peer : Peer δ} {s t : Link δ} {d : δ} {D : Link δ → Prop}
  {reply : Reply} {channel opcode : UInt8} {seq : UInt16}

section Rules

theorem wp_andThen {p : Prog (Link δ) (Except ℤ α)} {f : α → Prog (Link δ) (Except ℤ β)}
    {Q : Except ℤ β → Link δ → Prop}
    (h : wp p (fun result t => match result with
      | .error code => Q (.error code) t
      | .ok a => wp (f a) Q D t) D s) : wp (andThen p f) Q D s := by
  unfold andThen
  refine wp_seq h ?_
  intro result t hresult
  cases result with
  | error code => exact hresult
  | ok a => exact hresult

/-- A buffer that is too small makes the operation fail before it sends anything. -/
theorem wp_withScratch {required : ℕ} {run : Prog (Link δ) (Except ℤ α)}
    {Q : Except ℤ α → Link δ → Prop} (hrefused : peer.scratchSize< required → Q (.error (-1)) s)
    (h : required≤peer.scratchSize → wp run Q D s) : wp (withScratch peer required run) Q D s := by
  unfold withScratch
  by_cases hsmall : peer.scratchSize< required
  · rw [if_pos hsmall]
    exact hrefused hsmall
  · rw [if_neg hsmall]
    exact h (Nat.not_lt.mp hsmall)

/-- A command is answered, and its end is what follows. -/
theorem wp_exchange {chunks : List (List UInt8)} {R : Reply → δ → Prop}
    {finish : ClpHeader → Prog (Link δ) (Except ℤ α)} {Q : Except ℤ α → Link δ → Prop}
    (hlength : chunks.flatten.length≤ clpFrameMaxPayloadBytes)
    (hd : Answers peer.transport channel opcode chunks.flatten R s.device)
    (h : ∀ seq reply t d,reply.payload.length≤ clpFrameMaxPayloadBytes →
      Delivers peer.transport (payloadWords reply.payload) t.device d → R reply d →
      wp (finish (reply.header channel opcode seq)) Q D t) :
    wp (exchange peer channel opcode chunks finish) Q D s := by
  unfold exchange
  refine wp_andThen ?_
  rw [commandAnswer_eq peer.transport channel opcode chunks ⟨0,0,0,0,0,0,0,0⟩,wp_bind]
  refine wp_answered (wirePayloadLength_of_le hlength) hd ?_
  intro seq reply t d _ hframe hdeliver hr
  exact h seq reply t d hframe hdeliver hr

/-- A payload that does not fit in a frame is not sent. -/
theorem wp_exchange_tooLong {chunks : List (List UInt8)}
    {finish : ClpHeader → Prog (Link δ) (Except ℤ α)} {Q : Except ℤ α → Link δ → Prop}
    (hlength : wirePayloadLength chunks=none) (h : Q (.error (-1)) s) :
    wp (exchange peer channel opcode chunks finish) Q D s := by
  unfold exchange commandAnswer
  refine wp_andThen ?_
  rw [hlength]
  exact h

/-- What is left out brings the device to the end of its answer. -/
theorem wp_discard {Q : Unit → Link δ → Prop}
    (hlength : reply.payload.length≤ clpFrameMaxPayloadBytes)
    (hd : Delivers peer.transport (payloadWords reply.payload) t.device d)
    (hQ : ∀ u,u.device=d → Q () u) :
    wp (clWireDiscardPayload peer.transport (reply.header channel opcode seq).length) Q D t := by
  unfold clWireDiscardPayload
  rw [header_length,wp_bind]
  refine wp_receivePayload hlength hd fun pairs _ => ?_
  rw [wp_pure]
  exact hQ _ rfl

theorem wp_discardResponseError {Q : Except ℤ α → Link δ → Prop}
    (hlength : reply.payload.length≤ clpFrameMaxPayloadBytes)
    (hd : Delivers peer.transport (payloadWords reply.payload) t.device d)
    (hQ : ∀ code u,u.device=d → Q (.error code) u) :
    wp (discardResponseError peer (reply.header channel opcode seq)) Q D t := by
  unfold discardResponseError
  rw [wp_bind]
  refine wp_discard hlength hd fun u hu => ?_
  rw [wp_pure]
  exact hQ _ u hu

/-- The status decides, and there is no payload. -/
theorem wp_statusOnly {Q : Except ℤ Unit → Link δ → Prop} (hempty : reply.payload=[])
    (hd : Delivers peer.transport (payloadWords reply.payload) t.device d)
    (hok : reply.status=clpStatusOk → ∀ u,u.device=d → Q (.ok ()) u)
    (hfail : reply.status≠clpStatusOk → ∀ code u,u.device=d → Q (.error code) u) :
    wp (statusOnly (reply.header channel opcode seq)) Q D t := by
  rw [hempty] at hd
  have hdevice : t.device=d := ((delivers_nil _).mp hd).symm
  unfold statusOnly
  rw [wp_pure,header_imm]
  by_cases hstatus : reply.status=clpStatusOk
  · rw [if_pos hstatus]
    exact hok hstatus t hdevice
  · rw [if_neg hstatus]
    exact hfail hstatus _ t hdevice

theorem toNat_payloadLength (hlength : reply.payload.length≤ clpFrameMaxPayloadBytes) :
    (UInt32.ofNat reply.payload.length).toNat=reply.payload.length := by
  have hmax : clpFrameMaxPayloadBytes=32768 := rfl
  exact UInt32.toNat_ofNat_of_lt' (by unfold UInt32.size; omega)

/-- A payload of the expected length is read, any other answer is left out. -/
theorem wp_expectExact {expected : UInt32} {parse : List UInt8 → Except ℤ α}
    {Q : Except ℤ α → Link δ → Prop}
    (hlength : reply.payload.length≤ clpFrameMaxPayloadBytes)
    (hd : Delivers peer.transport (payloadWords reply.payload) t.device d)
    (hok : reply.status=clpStatusOk → reply.payload.length=expected.toNat →
      ∀ u,u.device=d → Q (parse reply.payload) u)
    (hfail : ¬(reply.status=clpStatusOk ∧ reply.payload.length=expected.toNat) →
      ∀ code u,u.device=d → Q (.error code) u) :
    wp (expectExact peer expected parse (reply.header channel opcode seq)) Q D t := by
  have hnat := toNat_payloadLength hlength
  have hsame : UInt32.ofNat reply.payload.length=expected ↔
      reply.payload.length=expected.toNat := by
    rw [← UInt32.toNat_inj,hnat]
  have hresponse : responseOk (reply.header channel opcode seq) expected=true ↔
      reply.status=clpStatusOk ∧ reply.payload.length=expected.toNat := by
    unfold responseOk
    rw [header_imm,header_length,Bool.and_eq_true,decide_eq_true_eq,decide_eq_true_eq,hsame]
  unfold expectExact
  by_cases hexpected : reply.status=clpStatusOk ∧ reply.payload.length=expected.toNat
  · rw [if_pos (hresponse.mpr hexpected),← hsame.mpr hexpected.2,wp_bind]
    refine wp_readPayloadWords hlength hd fun pairs _ => ?_
    rw [wp_pure]
    exact hok hexpected.1 hexpected.2 _ rfl
  · rw [if_neg (mt hresponse.mp hexpected)]
    exact wp_discardResponseError hlength hd (hfail hexpected)

/-- A payload within the bounds is read, any other answer is left out. -/
theorem wp_expectWithin {low high : UInt32} {parse : UInt32 → List UInt8 → Except ℤ α}
    {Q : Except ℤ α → Link δ → Prop}
    (hlength : reply.payload.length≤ clpFrameMaxPayloadBytes)
    (hd : Delivers peer.transport (payloadWords reply.payload) t.device d)
    (hok : reply.status=clpStatusOk → low.toNat≤ reply.payload.length →
      reply.payload.length≤high.toNat → ∀ u,u.device=d →
      Q (parse (UInt32.ofNat reply.payload.length) reply.payload) u)
    (hfail : ¬(reply.status=clpStatusOk ∧ low.toNat≤ reply.payload.length ∧
      reply.payload.length≤high.toNat) → ∀ code u,u.device=d → Q (.error code) u) :
    wp (expectWithin peer low high parse (reply.header channel opcode seq)) Q D t := by
  have hnat := toNat_payloadLength hlength
  have hshort : UInt32.ofNat reply.payload.length<low ↔ reply.payload.length<low.toNat := by
    rw [UInt32.lt_iff_toNat_lt,hnat]
  have hlong : high<UInt32.ofNat reply.payload.length ↔ high.toNat< reply.payload.length := by
    rw [UInt32.lt_iff_toNat_lt,hnat]
  unfold expectWithin
  rw [header_imm,header_length]
  by_cases hrefused : reply.status≠clpStatusOk ∨ UInt32.ofNat reply.payload.length<low ∨
      high<UInt32.ofNat reply.payload.length
  · rw [if_pos hrefused]
    refine wp_discardResponseError hlength hd (hfail ?_)
    rintro ⟨hstatus,hlow,hhigh⟩
    rcases hrefused with hne | hlt | hlt
    · exact hne hstatus
    · exact absurd hlow (Nat.not_le.mpr (hshort.mp hlt))
    · exact absurd hhigh (Nat.not_le.mpr (hlong.mp hlt))
  · obtain ⟨hstatus,hbounds⟩ := not_or.mp hrefused
    obtain ⟨hlow,hhigh⟩ := not_or.mp hbounds
    rw [if_neg hrefused,wp_bind]
    refine wp_readPayloadWords hlength hd fun pairs _ => ?_
    rw [wp_pure]
    exact hok (not_not.mp hstatus) (Nat.not_lt.mp (mt hshort.mpr hlow))
      (Nat.not_lt.mp (mt hlong.mpr hhigh)) _ rfl

end Rules

section Parts

/-- The words of a payload whose first part ends on a word. -/
theorem wordsOf_append {first : List UInt8} (rest : List UInt8) {count : ℕ} (more : ℕ)
    (h : first.length=4*count) :
    wordsOf (first++rest) (count+more)=wordsOf first count++wordsOf rest more := by
  induction count generalizing first with
  | zero =>
    have hempty : first=[] := List.length_eq_zero_iff.mp h
    rw [hempty,Nat.zero_add]
    rfl
  | succ count ih =>
    have hfour : 4≤ first.length := by omega
    have hload : loadLe32 (first++rest)=loadLe32 first := by
      unfold loadLe32
      rw [List.take_append_of_le_length hfour]
    have hdrop : (first++rest).drop 4=first.drop 4++rest := List.drop_append_of_le_length hfour
    have hrest := @ih (first.drop 4) (by rw [List.length_drop]; omega)
    rw [Nat.succ_add,wordsOf_succ,wordsOf_succ,hload,hdrop,hrest,List.cons_append]

theorem payloadWords_append {first rest : List UInt8} {count : ℕ} (h : first.length=4*count)
    (hlength : (first++rest).length≤ clpFrameMaxPayloadBytes) :
    payloadWords (first++rest)=payloadWords first++payloadWords rest := by
  have hmax : clpFrameMaxPayloadBytes=32768 := rfl
  rw [List.length_append] at hlength
  have hcount : ((first++rest).length+3)/4=count+(rest.length+3)/4 := by
    rw [List.length_append]
    omega
  have hfirst : (first.length+3)/4=count := by omega
  rw [payloadWords_eq (by rw [List.length_append]; omega),payloadWords_eq (by omega),
    payloadWords_eq (by omega),hcount,hfirst,wordsOf_append rest _ h]

/-- A payload is read in two parts. -/
theorem wp_readParts {first rest : List UInt8} (count : ℕ) {Q : List UInt8 → Link δ → Prop}
    (h : first.length=4*count) (hlength : (first++rest).length≤ clpFrameMaxPayloadBytes)
    (hd : Delivers peer.transport (payloadWords (first++rest)) t.device d)
    (hQ : ∀ u,Delivers peer.transport (payloadWords rest) u.device d → Q first u) :
    wp (readPayloadWords peer.transport (UInt32.ofNat first.length)) Q D t := by
  rw [payloadWords_append h hlength] at hd
  obtain ⟨d',hfirst,hrest⟩ := (delivers_append peer.transport).mp hd
  rw [List.length_append] at hlength
  exact wp_readPayloadWords (by omega) hfirst fun pairs _ => hQ _ hrest

end Parts

end ChisLink.AnsweredExchange
