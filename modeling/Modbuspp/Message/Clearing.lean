import Modbuspp.Message.Receive
import Modbuspp.Message.Transactions

/-!
# Clearing a message

`clear` is documented to return a message to its initial state. It restores the length of the buffer
but not its content, does not touch the response flag, and on TCP the number of the slave that it
writes counts as a byte of the ADU. So only an RTU message that carries no flag and no bytes is as
good as new afterwards.
-/

namespace Modbuspp

/-- Two computations that end alike: with related values or with the same fault. -/
def EndAlike {α β : Type} (relation : α → β → Prop) : Except Fault α → Except Fault β → Prop
  | .ok left, .ok right => relation left right
  | .error left, .error right => left = right
  | _, _ => False

section EndAlike

variable {α β γ δ : Type} {relation : α → β → Prop} {after : γ → δ → Prop} {left : Except Fault α}
  {right : Except Fault β}

theorem EndAlike.cases (alike : EndAlike relation left right) :
    (∃ fault, left = .error fault ∧ right = .error fault) ∨
      ∃ l r, left = .ok l ∧ right = .ok r ∧ relation l r := by
  cases left with
  | error fault =>
      cases right with
      | error other => exact Or.inl ⟨fault, rfl, congrArg _ alike.symm⟩
      | ok value => exact alike.elim
  | ok value =>
      cases right with
      | error fault => exact alike.elim
      | ok other => exact Or.inr ⟨value, other, rfl, rfl, alike⟩

theorem EndAlike.bind {leftNext : α → Except Fault γ} {rightNext : β → Except Fault δ}
    (alike : EndAlike relation left right)
    (next : ∀ l r, relation l r → EndAlike after (leftNext l) (rightNext r)) :
    EndAlike after (left >>= leftNext) (right >>= rightNext) := by
  rcases alike.cases with ⟨fault, rfl, rfl⟩ | ⟨l, r, rfl, rfl, holds⟩
  · exact rfl
  · exact next l r holds

theorem EndAlike.bind_same (first : Except Fault α) {leftNext : α → Except Fault γ}
    {rightNext : α → Except Fault δ}
    (next : ∀ value, EndAlike after (leftNext value) (rightNext value)) :
    EndAlike after (first >>= leftNext) (first >>= rightNext) := by
  cases first with
  | error fault => exact rfl
  | ok value => exact next value

theorem EndAlike.mono {weaker : α → β → Prop} (alike : EndAlike relation left right)
    (weaken : ∀ l r, relation l r → weaker l r) : EndAlike weaker left right := by
  rcases alike.cases with ⟨fault, rfl, rfl⟩ | ⟨l, r, rfl, rfl, holds⟩
  · exact rfl
  · exact weaken l r holds

theorem EndAlike.and_left {property : α → Prop} (alike : EndAlike relation left right)
    (holds : ∀ value, left = .ok value → property value) :
    EndAlike (fun l r => relation l r ∧ property l) left right := by
  rcases alike.cases with ⟨fault, rfl, rfl⟩ | ⟨l, r, rfl, rfl, related⟩
  · exact rfl
  · exact ⟨related, holds l rfl⟩

end EndAlike

namespace Message

/-- A call that is made on a message after it was cleared. -/
inductive Operation where
  | edit (e : Edit)
  | setResponseFlag (flag : Bool)
  | setTransactionIdentifier (tid : UInt16)
  | prepareToSend

/-- One operation on a message, next to the layer it was built on. -/
def Operation.run (operation : Operation) (state : Message × NetLayer) :
    Except Fault (Message × NetLayer) :=
  match operation with
  | .edit e => do
      let msg ← e.apply state.1
      pure (msg, state.2)
  | .setResponseFlag flag => .ok (state.1.setResponseFlag flag, state.2)
  | .setTransactionIdentifier tid => do
      let msg ← state.1.setTransactionIdentifier tid
      pure (msg, state.2)
  | .prepareToSend => do
      let (_, msg, layer) ← state.1.prepareToSend state.2
      pure (msg, layer)

/-- The message and the layer after the calls of a list. -/
def operate (state : Message × NetLayer) (operations : List Operation) :
    Except Fault (Message × NetLayer) :=
  operations.foldlM (fun state operation => operation.run state) state

/-- What can be seen of a cleared message is what can be seen of a fresh one: in its state, in the
ADU that any later operations produce, and behind a frame that the server receives in it. -/
structure LikeFresh (msg cleared fresh : Message) : Prop where
  aduSize_eq : cleared.aduSize = fresh.aduSize
  size_eq : cleared.size = fresh.size
  adu_eq : cleared.adu = fresh.adu
  isResponse_eq : cleared.isResponse = fresh.isResponse
  later : ∀ layer operations, layer.net = msg.net →
    EndAlike (fun left right => left.1.aduSize = right.1.aduSize ∧ left.1.adu = right.1.adu)
      (operate (cleared, layer) operations) (operate (fresh, layer) operations)
  received : ∀ (dev : Device) (bytes : List UInt8) (arrival : Arrival) (rc : ℤ) (req : Message),
    Server.receive dev { arrival with frame := some bytes } msg = .ok (rc, req) → 0 < rc →
    ∀ index, bytes.length ≤ index → req.adu[index]? = fresh.adu[index]?

/-- After `clear` the message cannot be told from one freshly built on the same net. -/
def ClearsToFresh (msg : Message) : Prop :=
  ∃ cleared, msg.clear = .ok cleared ∧
    ∀ origin fresh, create origin .empty = .ok fresh → fresh.net = msg.net →
      LikeFresh msg cleared fresh

theorem SameFrame.setByte {left right : Message} (same : SameFrame left right) (pduOffset : ℤ)
    (value : UInt8) :
    EndAlike SameFrame (left.setByte pduOffset value) (right.setByte pduOffset value) := by
  rcases left with ⟨_, _, _, _, _, _, _⟩
  rcases right with ⟨_, _, _, _, _, _, _⟩
  rcases same with ⟨rfl, rfl, rfl, rfl⟩
  apply EndAlike.bind_same (checked (Storage.write _ _ value))
  intro adu
  exact ⟨rfl, rfl, rfl, rfl⟩

theorem SameFrame.setWord {left right : Message} (same : SameFrame left right) (pduOffset : ℤ)
    (value : UInt16) :
    EndAlike SameFrame (left.setWord pduOffset value) (right.setWord pduOffset value) := by
  rcases left with ⟨_, _, _, _, _, _, _⟩
  rcases right with ⟨_, _, _, _, _, _, _⟩
  rcases same with ⟨rfl, rfl, rfl, rfl⟩
  apply EndAlike.bind_same (checked (Storage.write _ _ _))
  intro adu
  apply EndAlike.bind_same (checked (Storage.write _ _ _))
  intro adu
  exact ⟨rfl, rfl, rfl, rfl⟩

theorem SameFrame.setPdu {left right : Message} (same : SameFrame left right)
    (data : List UInt8) : EndAlike SameFrame (left.setPdu data) (right.setPdu data) := by
  rcases left with ⟨_, _, _, _, _, _, _⟩
  rcases right with ⟨_, _, _, _, _, _, _⟩
  rcases same with ⟨rfl, rfl, rfl, rfl⟩
  apply EndAlike.bind_same (checked (Storage.blit _ _ data))
  intro adu
  exact ⟨rfl, rfl, rfl, rfl⟩

theorem SameFrame.setPduFrom {left right : Message} (same : SameFrame left right)
    (src : Message) : EndAlike SameFrame (left.setPduFrom src) (right.setPduFrom src) := by
  rcases left with ⟨_, _, _, _, _, _, _⟩
  rcases right with ⟨_, _, _, _, _, _, _⟩
  rcases same with ⟨rfl, rfl, rfl, rfl⟩
  apply EndAlike.bind_same (checked (Storage.slice _ _ _))
  intro data
  apply EndAlike.bind_same (checked (Storage.blit _ _ data))
  intro adu
  exact ⟨rfl, rfl, rfl, rfl⟩

theorem SameFrame.clear {left right : Message} (same : SameFrame left right) :
    EndAlike SameFrame left.clear right.clear := by
  let emptied : Message → Message := fun msg =>
    { msg with adu := Storage.resize msg.adu msg.maxAduLength 0, aduSize := 0 }
  have sameEmptied : SameFrame (emptied left) (emptied right) := by
    refine ⟨same.net_eq, rfl, same.isResponse_eq, ?_⟩
    simp only [emptied, maxAduLength, same.net_eq, same.adu_eq]
  by_cases tcp : left.net = .tcp
  · have rightTcp : right.net = .tcp := same.net_eq.symm.trans tcp
    simp only [Message.clear, if_pos tcp, if_pos rightTcp]
    exact sameEmptied.setByte _ _
  · have rightOther : ¬right.net = .tcp := same.net_eq ▸ tcp
    simp only [Message.clear, if_neg tcp, if_neg rightOther]
    exact sameEmptied

theorem SameFrame.edit {left right : Message} (same : SameFrame left right) (e : Edit) :
    EndAlike SameFrame (e.apply left) (e.apply right) := by
  cases e with
  | setByte pduOffset value => exact same.setByte pduOffset value
  | setWord pduOffset value => exact same.setWord pduOffset value
  | setFunction func => exact same.setByte _ _
  | setSlaveId id => exact same.setByte _ _
  | setStartingAdress addr => exact same.setWord _ _
  | setQuantity n => exact same.setWord _ _
  | setSize size =>
      refine ⟨same.net_eq, ?_, same.isResponse_eq, same.adu_eq⟩
      simp only [Message.setSize, pduBegin, same.net_eq]
  | setPdu data => exact same.setPdu data
  | setPduFrom src => exact same.setPduFrom src
  | clear => exact same.clear

/-- Whatever the backend, an RTU message is prepared in the same way. -/
theorem rtu_prepared {msg : Message} (rtu : msg.net = .rtu) (nonempty : 1 ≤ msg.size)
    (room : msg.aduSize + 2 ≤ msg.adu.length) :
    msg.prepareToSend .rtu = .ok (true, msg.withCrc, .rtu) := by
  cases kept : msg.backend with
  | true =>
      simp only [Message.prepareToSend, if_pos kept, NetLayer.prepareToSend,
        rtu_prepareToSend_ok rtu nonempty room, ok_bind, pure_eq_ok]
  | false => exact own_rtu_prepareToSend_ok kept rtu nonempty room

theorem SameFrame.prepareToSend {left right : Message} (same : SameFrame left right)
    (rtu : left.net = .rtu) :
    EndAlike (fun l r => SameFrame l.2.1 r.2.1 ∧ l.2.1.net = .rtu ∧ l.2.2 = .rtu ∧ r.2.2 = .rtu)
      (left.prepareToSend .rtu) (right.prepareToSend .rtu) := by
  have rightRtu : right.net = .rtu := same.net_eq.symm.trans rtu
  have sizes := same.size_eq
  have lengths := congrArg List.length same.adu_eq
  have extents := same.aduSize_eq
  by_cases empty : left.size = 0
  · rw [prepareToSend_empty empty, prepareToSend_empty (sizes ▸ empty)]
    exact ⟨same, rtu, rfl, rfl⟩
  · by_cases room : left.aduSize + 2 ≤ left.adu.length
    · rw [rtu_prepared rtu (by omega) room, rtu_prepared rightRtu (by omega) (by omega)]
      exact ⟨same.withCrc, rtu, rfl, rfl⟩
    · have leftLayer : NetLayer.rtu.net = left.net := rtu.symm
      have rightLayer : NetLayer.rtu.net = right.net := rightRtu.symm
      rw [prepareToSend_noRoom leftLayer rtu (by omega) (by omega),
        prepareToSend_noRoom rightLayer rightRtu (by omega) (by omega)]
      exact rfl

/-- States on RTU with the same frame. -/
def SameState (left right : Message × NetLayer) : Prop :=
  SameFrame left.1 right.1 ∧ left.1.net = .rtu ∧ left.2 = .rtu ∧ right.2 = .rtu

/-- One operation on RTU keeps two states with the same frame alike. -/
theorem SameState.run {left right : Message × NetLayer} (same : SameState left right)
    (operation : Operation) : EndAlike SameState (operation.run left) (operation.run right) := by
  rcases left with ⟨left, leftLayer⟩
  rcases right with ⟨right, rightLayer⟩
  rcases same with ⟨frames, rtu, rfl, rfl⟩
  have rightRtu : right.net = .rtu := frames.net_eq.symm.trans rtu
  cases operation with
  | edit e =>
      have edited := (frames.edit e).and_left fun edited applied =>
        (edit_keepsBelow applied).net_eq.trans rtu
      apply EndAlike.bind edited
      rintro l r ⟨same, net⟩
      exact ⟨same, net, rfl, rfl⟩
  | setResponseFlag flag =>
      exact ⟨⟨frames.net_eq, frames.aduSize_eq, rfl, frames.adu_eq⟩, rtu, rfl, rfl⟩
  | setTransactionIdentifier tid =>
      have leftOther : left.net ≠ .tcp := by
        rw [rtu]
        decide
      have rightOther : right.net ≠ .tcp := by
        rw [rightRtu]
        decide
      simp only [Operation.run, setTransactionIdentifier, if_pos leftOther, if_pos rightOther,
        error_bind]
      exact rfl
  | prepareToSend =>
      apply EndAlike.bind (frames.prepareToSend rtu)
      intro l r related
      exact related

theorem SameState.operate {left right : Message × NetLayer} (same : SameState left right)
    (operations : List Operation) :
    EndAlike SameState (Message.operate left operations) (Message.operate right operations) := by
  induction operations generalizing left right with
  | nil => exact same
  | cons operation operations ih =>
      simp only [Message.operate, List.foldlM_cons]
      apply EndAlike.bind (same.run operation)
      intro l r related
      exact ih related

theorem fresh_spec {origin : Origin} {fresh : Message} (built : create origin .empty = .ok fresh) :
    fresh.aduSize = 0 ∧ fresh.isResponse = false ∧ fresh.adu = blankAdu fresh.net := by
  simp only [create, bind_eq_ok_iff] at built
  rcases built with ⟨blank, blank_eq, done⟩
  cases done
  exact Origin.blank_spec blank_eq

theorem exists_fresh (msg : Message) :
    ∃ fresh, create (.net msg.net) .empty = .ok fresh ∧ fresh.net = msg.net := by
  rcases msg.pduBegin_cases with ⟨rtu, _, _⟩ | ⟨tcp, _, _⟩
  · rw [rtu]
    exact ⟨_, rfl, rfl⟩
  · rw [tcp]
    simp only [create, Origin.blank, blank_eq, ok_bind, pure_eq_ok]
    exact ⟨_, rfl, rfl⟩

/-- On TCP the number of the slave is written through a setter that counts it. -/
theorem tcp_clear_aduSize {msg cleared : Message} (tcp : msg.net = .tcp)
    (done : msg.clear = .ok cleared) : cleared.aduSize = 7 := by
  have place : msg.pduBegin + -1 = (6 : ℕ) := by simp [pduBegin, tcp, Net.headerLength]
  have inside : 6 < (Storage.resize msg.adu msg.maxAduLength 0).length := by
    rw [Storage.length_resize]
    simp [maxAduLength, tcp, Net.maxAduLength]
  let emptied := { msg with adu := Storage.resize msg.adu msg.maxAduLength 0, aduSize := 0 }
  have numbered : emptied.setByte (-1) (UInt8.ofNat (tcpSlave % 256 : ℤ).toNat) = _ :=
    setByte_ok (-1) 6 _ place inside
  simp only [Message.clear, if_pos tcp, setSlaveId] at done
  rw [numbered] at done
  cases done
  rfl

theorem resize_eq_zeros_iff {cells : List UInt8} {length : ℕ} :
    Storage.resize cells length 0 = List.replicate length 0 ↔
      ∀ value ∈ cells.take length, value = 0 := by
  have members : ∀ value, value ∈ Storage.resize cells length 0 ↔
      value ∈ cells.take length ∨ length - cells.length ≠ 0 ∧ value = 0 := by
    intro value
    simp only [Storage.resize, List.mem_append, List.mem_replicate]
  rw [List.eq_replicate_iff]
  constructor
  · rintro ⟨_, zeros⟩ value mem
    exact zeros value ((members value).mpr (Or.inl mem))
  · intro zeros
    refine ⟨Storage.length_resize _ _ _, ?_⟩
    intro value mem
    rcases (members value).mp mem with taken | ⟨_, zero⟩
    · exact zeros value taken
    · exact zero

/-- The server stores a frame over the start of the cleared buffer. -/
theorem server_receive_behind {dev : Device} {bytes : List UInt8} {arrival : Arrival} {rc : ℤ}
    {msg cleared req : Message} (emptied : msg.clear = .ok cleared)
    (received : Server.receive dev { arrival with frame := some bytes } msg = .ok (rc, req))
    (positive : 0 < rc) {index : ℕ} (behind : bytes.length ≤ index) :
    req.adu[index]? = cleared.adu[index]? := by
  simp only [Server.receive] at received
  split at received
  · cases received
    omega
  · simp only [emptied, ok_bind, receiveFrame, bind_eq_ok_iff, checked_eq_ok_iff] at received
    rcases received with ⟨⟨count, adu⟩, ⟨cells, stored, same⟩, done⟩
    simp only [pure_eq_ok, Except.ok.injEq, Prod.mk.injEq] at same
    rcases same with ⟨rfl, rfl⟩
    have kept : cells[index]? = cleared.adu[index]? := by
      by_cases room : (bytes.length : ℤ) ≤ cleared.adu.length
      · rw [Storage.blit_eq_some cleared.adu 0 bytes (by omega) (by omega)] at stored
        cases stored
        rw [Int.toNat_zero, Storage.getElem?_overwrite (by omega), if_neg (by omega)]
      · by_cases none : bytes = []
        · simp [none] at room
        · rw [Storage.blit_eq_none none (by omega)] at stored
          cases stored
    split at done
    · cases done
      exact kept
    · cases done
      exact kept

/-- A message is as good as new after `clear` exactly when it is an RTU message without the response
flag and its buffer holds only zeros within the maximum length. -/
theorem clearsToFresh_iff {msg : Message} :
    msg.ClearsToFresh ↔ msg.net = .rtu ∧ msg.isResponse = false ∧
      ∀ value ∈ msg.adu.take msg.maxAduLength, value = 0 := by
  constructor
  · rintro ⟨cleared, done, fresh⟩
    rcases exists_fresh msg with ⟨other, built, net_eq⟩
    have like := fresh _ other built net_eq
    rcases fresh_spec built with ⟨noSize, unflagged, buffer⟩
    rcases msg.pduBegin_cases with ⟨rtu, _, _⟩ | ⟨tcp, _, _⟩
    · have notTcp : ¬msg.net = .tcp := by
        rw [rtu]
        decide
      simp only [Message.clear, if_neg notTcp] at done
      cases done
      refine ⟨rtu, like.isResponse_eq.trans unflagged, ?_⟩
      rw [← resize_eq_zeros_iff]
      have cells := like.adu_eq
      rw [buffer, net_eq, blankAdu, if_neg notTcp] at cells
      exact cells
    · have counted := tcp_clear_aduSize tcp done
      have extents := like.aduSize_eq
      omega
  · rintro ⟨rtu, unset, zeros⟩
    have notTcp : ¬msg.net = .tcp := by
      rw [rtu]
      decide
    have done : msg.clear = .ok { msg with
        adu := Storage.resize msg.adu msg.maxAduLength 0, aduSize := 0 } := by
      simp only [Message.clear, if_neg notTcp]
    refine ⟨_, done, ?_⟩
    intro origin fresh built net_eq
    rcases fresh_spec built with ⟨noSize, unflagged, buffer⟩
    have same : SameFrame { msg with
        adu := Storage.resize msg.adu msg.maxAduLength 0, aduSize := 0 } fresh := by
      refine ⟨net_eq.symm, noSize.symm, unset.trans unflagged.symm, ?_⟩
      rw [buffer, net_eq, blankAdu, if_neg notTcp]
      exact resize_eq_zeros_iff.mpr zeros
    refine ⟨same.aduSize_eq, same.size_eq, same.adu_eq, same.isResponse_eq, ?_, ?_⟩
    · intro layer operations corresponds
      have rtuLayer : layer = .rtu := by
        cases layer with
        | rtu => rfl
        | tcp tid => simp [NetLayer.net, rtu] at corresponds
      subst rtuLayer
      have states : SameState (_, .rtu) (fresh, .rtu) := ⟨same, rtu, rfl, rfl⟩
      exact (states.operate operations).mono fun l r state => ⟨state.1.aduSize_eq, state.1.adu_eq⟩
    · intro dev bytes arrival rc req received positive index behind
      rw [server_receive_behind done received positive behind, same.adu_eq]

/-- A write request without its CRC: the value it carries survives `clear`, and a frame of two bytes
that is received next does not cover it. -/
theorem clear_keeps_request :
    ∃ msg cleared received, create (.net .rtu) (.adu [0x11, 6, 0, 1, 0xAB, 0xCD]) = .ok msg ∧
      msg.clear = .ok cleared ∧ receiveFrame (some [0x11, 7]) cleared.adu = .ok (2, received) ∧
      received[4]? = some 0xAB ∧ ¬msg.ClearsToFresh := by
  have room : [0x11, 7].length ≤
      (Storage.resize [0x11, 6, 0, 1, 0xAB, 0xCD] 256 (0 : UInt8)).length := by
    rw [Storage.length_resize]
    decide
  refine ⟨_, _, _, rfl, rfl, receiveFrame_ok room, rfl, ?_⟩
  rintro ⟨cleared, done, fresh⟩
  cases done
  rcases exists_fresh _ with ⟨other, built, net_eq⟩
  have like := fresh _ other built net_eq
  have cell := congrArg (fun cells => cells[4]?) like.adu_eq
  rw [(fresh_spec built).2.2, net_eq] at cell
  cases cell

end Message

end Modbuspp
