import Modbuspp.Message.Buffer
import Modbuspp.Message.Words

/-!
# Transaction identifiers

A client on TCP recognizes the response to its request by the transaction identifier. The layer
numbers what it prepares, unless the response flag is set. Copying or moving a request or a message
into a `Response` sets the flag; the constructors of `Response` on a layer or on a device leave it
unset, so a response built by them and given an identifier loses it to the next number of the layer.
-/

namespace Modbuspp

namespace Message

/-- The transaction identifier, which only a TCP message has. -/
def transactionIdentifier (msg : Message) : Except Fault UInt16 :=
  if msg.net ≠ .tcp then
    .error (.domainError "Unable to return transaction identifier if backend is not TCP !")
  else msg.word (-7)

/-- Sets the transaction identifier of a TCP message. -/
def setTransactionIdentifier (msg : Message) (tid : UInt16) : Except Fault Message :=
  if msg.net ≠ .tcp then
    .error (.domainError "Unable to set transaction identifier if backend is not TCP !")
  else msg.setWord (-7) tid

/-- The message is a response from now on, or a request. -/
def setResponseFlag (msg : Message) (flag : Bool) : Message := { msg with isResponse := flag }

/-- The first offset that an edit may write. -/
def Edit.firstOffset : Edit → ℤ
  | .setByte pduOffset _ => pduOffset
  | .setWord pduOffset _ => pduOffset
  | .setFunction _ => 0
  | .setSlaveId _ => -1
  | .setStartingAdress _ => 1
  | .setQuantity _ => 3
  | .setSize _ => 0
  | .setPdu _ => 0
  | .setPduFrom _ => 0
  | .clear => -1

/-- The message keeps its net, its flag and the cells before a bound. -/
structure KeepsBelow (bound : ℤ) (msg edited : Message) : Prop where
  net_eq : edited.net = msg.net
  isResponse_eq : edited.isResponse = msg.isResponse
  cells : ∀ index : ℕ, index < bound → index < msg.adu.length →
    edited.adu[index]? = msg.adu[index]?

theorem setByte_keepsBelow {msg edited : Message} {pduOffset : ℤ} {value : UInt8}
    (written : msg.setByte pduOffset value = .ok edited) :
    KeepsBelow (msg.pduBegin + pduOffset) msg edited := by
  simp only [Message.setByte, bind_eq_ok_iff, checked_eq_ok_iff, Storage.write_eq_some_iff]
    at written
  rcases written with ⟨adu, ⟨⟨lower, _⟩, rfl⟩, done⟩
  cases done
  refine ⟨rfl, rfl, ?_⟩
  intro index below _
  exact List.getElem?_set_ne (by omega)

theorem setWord_keepsBelow {msg edited : Message} {pduOffset : ℤ} {value : UInt16}
    (written : msg.setWord pduOffset value = .ok edited) :
    KeepsBelow (msg.pduBegin + pduOffset) msg edited := by
  simp only [Message.setWord, bind_eq_ok_iff, checked_eq_ok_iff, Storage.write_eq_some_iff]
    at written
  rcases written with ⟨first, ⟨⟨lower, _⟩, rfl⟩, second, ⟨_, rfl⟩, done⟩
  cases done
  refine ⟨rfl, rfl, ?_⟩
  intro index below _
  exact (List.getElem?_set_ne (by omega)).trans (List.getElem?_set_ne (by omega))

theorem blit_keepsBelow {msg : Message} {adu data : List UInt8} {size : ℕ}
    (copied : Storage.blit msg.adu msg.pduBegin data = some adu) :
    KeepsBelow msg.pduBegin msg ({ msg with adu }.setSize size) := by
  refine ⟨rfl, rfl, ?_⟩
  intro index below _
  change adu[index]? = msg.adu[index]?
  simp only [Storage.blit] at copied
  split at copied
  · cases copied
    rfl
  · split at copied
    · next room =>
        cases copied
        rw [Storage.getElem?_overwrite (by omega), if_neg (by omega)]
    · cases copied

theorem clear_keepsBelow {msg edited : Message} (cleared : msg.clear = .ok edited) :
    KeepsBelow (msg.pduBegin - 1) msg edited := by
  have resized : ∀ index : ℕ, index < msg.pduBegin - 1 → index < msg.adu.length →
      (Storage.resize msg.adu msg.maxAduLength 0)[index]? = msg.adu[index]? := by
    intro index below inside
    have limits := msg.pduBegin_cases
    simp only [Storage.resize]
    rw [List.getElem?_append_left (by rw [List.length_take]; omega),
      List.getElem?_take_of_lt (by omega)]
  simp only [Message.clear] at cleared
  split at cleared
  · have numbered := setByte_keepsBelow cleared
    refine ⟨numbered.net_eq, numbered.isResponse_eq, ?_⟩
    intro index below inside
    rw [← resized index below inside]
    apply numbered.cells
    · exact below
    · have limits := msg.pduBegin_cases
      change index < (Storage.resize msg.adu msg.maxAduLength 0).length
      rw [Storage.length_resize]
      omega
  · cases cleared
    exact ⟨rfl, rfl, resized⟩

theorem KeepsBelow.mono {bound smaller : ℤ} {msg edited : Message}
    (keeps : KeepsBelow bound msg edited) (le : smaller ≤ bound) :
    KeepsBelow smaller msg edited :=
  ⟨keeps.net_eq, keeps.isResponse_eq, fun index below inside => keeps.cells index (by omega) inside⟩

theorem edit_keepsBelow {msg edited : Message} {e : Edit} (applied : e.apply msg = .ok edited) :
    KeepsBelow (msg.pduBegin + e.firstOffset) msg edited := by
  cases e with
  | setByte pduOffset value => exact setByte_keepsBelow applied
  | setWord pduOffset value => exact setWord_keepsBelow applied
  | setFunction func => exact setByte_keepsBelow applied
  | setSlaveId id => exact setByte_keepsBelow applied
  | setStartingAdress addr => exact setWord_keepsBelow applied
  | setQuantity n => exact setWord_keepsBelow applied
  | setSize size =>
      cases applied
      exact ⟨rfl, rfl, fun _ _ _ => rfl⟩
  | setPdu data =>
      simp only [Edit.apply, setPdu, bind_eq_ok_iff, checked_eq_ok_iff] at applied
      rcases applied with ⟨adu, copied, done⟩
      cases done
      exact (blit_keepsBelow copied).mono (by simp only [Edit.firstOffset]; omega)
  | setPduFrom src =>
      simp only [Edit.apply, setPduFrom, bind_eq_ok_iff, checked_eq_ok_iff] at applied
      rcases applied with ⟨data, _, adu, copied, done⟩
      cases done
      exact (blit_keepsBelow copied).mono (by simp only [Edit.firstOffset]; omega)
  | clear => exact (clear_keepsBelow applied).mono (by simp only [Edit.firstOffset]; omega)

end Message

namespace Response

/-- The ways to build a `Response` for a request. The constructors on a layer or on a device are
followed by `setTransactionIdentifier`. -/
inductive Construction where
  /-- A copy or a move of the request, as a `Request` or as a `Message`. -/
  | ofMessage
  | onLayer (backend : NetLayer) (content : Message.Content)
  | onDevice (backend : Option NetLayer) (content : Message.Content)

/-- The response to a request that was prepared with this identifier. -/
def Construction.build (way : Construction) (req : Message) (tid : UInt16) :
    Except Fault Message :=
  match way with
  | .ofMessage => .ok { req with isResponse := true }
  | .onLayer backend content => do
      let resp ← Message.create (.layer backend) content
      resp.setTransactionIdentifier tid
  | .onDevice backend content => do
      let resp ← Message.create (.device backend) content
      resp.setTransactionIdentifier tid

/-- What is done to a response before it is prepared. -/
inductive Completion where
  | edit (e : Message.Edit)
  | setResponseFlag (flag : Bool)

/-- The response after a step of its completion. -/
def Completion.apply (completion : Completion) (resp : Message) : Except Fault Message :=
  match completion with
  | .edit e => e.apply resp
  | .setResponseFlag flag => .ok (resp.setResponseFlag flag)

/-- The response after the steps of its completion. -/
def complete (resp : Message) (completions : List Completion) : Except Fault Message :=
  completions.foldlM (fun resp completion => completion.apply resp) resp

/-- Whether the construction sets the response flag. -/
def Construction.setsFlag : Construction → Bool
  | .ofMessage => true
  | .onLayer _ _ => false
  | .onDevice _ _ => false

/-- Whether the message is a response after the step. -/
def Completion.flag (flag : Bool) : Completion → Bool
  | .edit _ => flag
  | .setResponseFlag flag => flag

/-- The flag that the construction leaves, after the calls of `setResponseFlag`. -/
def flagged (way : Construction) (completions : List Completion) : Bool :=
  completions.foldl Completion.flag way.setsFlag

/-- The completion writes nothing over the transaction identifier. -/
def Completion.SparesIdentifier : Completion → Prop
  | .edit e => -5 ≤ e.firstOffset
  | .setResponseFlag _ => True

/-- The two ways to prepare a message: through the message or through the layer. -/
inductive Path where
  | message
  | backend

/-- The message that the path puts on the wire. -/
def Path.prepareToSend (path : Path) (layer : NetLayer) (msg : Message) :
    Except Fault (Bool × Message × NetLayer) :=
  match path with
  | .message => msg.prepareToSend layer
  | .backend => layer.prepareToSend msg

/-- The number that the preparation on a layer gives to a message without the response flag: a
message without backend counts by itself. -/
def Path.number (path : Path) (msg : Message) (counter : UInt16) : UInt16 :=
  match path with
  | .message => if msg.backend then counter else msg.transactionId
  | .backend => counter

/-- The preparation completes the length field and keeps both identifiers: the response carries the
identifier of its request. -/
def Paired (resp : Message) (tid : UInt16) (path : Path) (layer : NetLayer) : Prop :=
  ∃ prepared next, path.prepareToSend layer resp = .ok (true, prepared, next) ∧
    prepared.transactionIdentifier = .ok tid ∧ prepared.word (-5) = resp.word (-5) ∧
    prepared.word (-3) = .ok (UInt16.ofNat (resp.size + 1))

open Message

/-- A TCP message that carries a transaction identifier. -/
structure Carries (resp : Message) (tid : UInt16) : Prop where
  tcp : resp.net = .tcp
  identifier : resp.word (-7) = .ok tid

theorem Carries.begin_eq {resp : Message} {tid : UInt16} (carries : Carries resp tid) :
    resp.pduBegin = 7 := by
  simp [pduBegin, carries.tcp, Net.headerLength]

theorem carries_iff {resp : Message} {tid : UInt16} :
    Carries resp tid ↔ resp.transactionIdentifier = .ok tid := by
  constructor
  · rintro ⟨tcp, identifier⟩
    simpa only [transactionIdentifier, if_neg (not_not.mpr tcp)] using identifier
  · intro found
    simp only [transactionIdentifier] at found
    split at found
    · cases found
    · next tcp => exact ⟨not_not.mp tcp, found⟩

theorem Carries.length {resp : Message} {tid : UInt16} (carries : Carries resp tid) :
    2 ≤ resp.adu.length := by
  have place : resp.pduBegin + -7 = (0 : ℕ) := by
    rw [carries.begin_eq]
    rfl
  exact cells_of_word place carries.identifier

/-- An identifier stays where the net and the two cells that hold it stay. -/
theorem Carries.of_cells {resp edited : Message} {tid : UInt16} (carries : Carries resp tid)
    (sameNet : edited.net = resp.net)
    (cells : ∀ index < 2, edited.adu[index]? = resp.adu[index]?) : Carries edited tid := by
  have begin_eq := carries.begin_eq
  have sameBegin : edited.pduBegin = resp.pduBegin := by simp only [pduBegin, sameNet]
  refine ⟨sameNet.trans carries.tcp, ?_⟩
  rw [← carries.identifier]
  apply word_congr
  · show edited.pduBegin + -7 = (0 : ℕ)
    omega
  · show resp.pduBegin + -7 = (0 : ℕ)
    omega
  · exact cells 0 (by omega)
  · exact cells 1 (by omega)

theorem Carries.of_keepsBelow {resp edited : Message} {tid : UInt16} (carries : Carries resp tid)
    (keeps : KeepsBelow 2 resp edited) : Carries edited tid := by
  have length := carries.length
  apply carries.of_cells keeps.net_eq
  intro index below
  exact keeps.cells index (by omega) (by omega)

/-- One completion: the identifier stays and the flag changes by `setResponseFlag` only. -/
theorem Carries.completion {resp edited : Message} {tid : UInt16} {completion : Completion}
    (carries : Carries resp tid) (spares : completion.SparesIdentifier)
    (applied : completion.apply resp = .ok edited) :
    Carries edited tid ∧ edited.isResponse = completion.flag resp.isResponse := by
  cases completion with
  | edit e =>
      have offset : -5 ≤ e.firstOffset := spares
      have begins := carries.begin_eq
      have keeps := (edit_keepsBelow applied).mono (by omega : 2 ≤ resp.pduBegin + e.firstOffset)
      exact ⟨carries.of_keepsBelow keeps, keeps.isResponse_eq⟩
  | setResponseFlag flag =>
      cases applied
      exact ⟨carries.of_cells rfl fun _ _ => rfl, rfl⟩

theorem Carries.complete {built resp : Message} {tid : UInt16} {completions : List Completion}
    (carries : Carries built tid) (spares : ∀ completion ∈ completions, completion.SparesIdentifier)
    (completed : Response.complete built completions = .ok resp) :
    Carries resp tid ∧
      resp.isResponse = completions.foldl Completion.flag built.isResponse := by
  induction completions generalizing built with
  | nil =>
      cases completed
      exact ⟨carries, rfl⟩
  | cons completion completions ih =>
      simp only [Response.complete, List.foldlM_cons, bind_eq_ok_iff] at completed
      rcases completed with ⟨next, applied, rest⟩
      rcases carries.completion (spares completion (by simp)) applied with
        ⟨nextCarries, nextFlag⟩
      have later : ∀ other ∈ completions, other.SparesIdentifier := by
        intro other mem
        exact spares other (List.mem_cons_of_mem _ mem)
      rcases ih nextCarries later rest with ⟨done, flag⟩
      refine ⟨done, ?_⟩
      rw [flag, nextFlag, List.foldl_cons]

/-- Setting the identifier of a message makes the message carry it. -/
theorem carries_setTransactionIdentifier {msg resp : Message} {tid : UInt16}
    (numbered : msg.setTransactionIdentifier tid = .ok resp) :
    Carries resp tid ∧ resp.isResponse = msg.isResponse := by
  simp only [setTransactionIdentifier] at numbered
  split at numbered
  · cases numbered
  · next tcp =>
      have keeps := setWord_keepsBelow numbered
      exact ⟨⟨keeps.net_eq.trans (not_not.mp tcp), word_setWord numbered⟩, keeps.isResponse_eq⟩

/-- No constructor that starts from an empty message sets the flag. -/
theorem create_unflagged {origin : Origin} {content : Content} {msg : Message}
    (created : create origin content = .ok msg) : msg.isResponse = false := by
  simp only [create, bind_eq_ok_iff] at created
  rcases created with ⟨blank, built, filled⟩
  have unflagged := (Origin.blank_spec built).2.1
  cases content with
  | empty =>
      cases filled
      exact unflagged
  | adu bytes =>
      cases filled
      exact unflagged
  | function f =>
      simp only [bind_eq_ok_iff] at filled
      rcases filled with ⟨adu, _, done⟩
      cases done
      exact unflagged

/-- Every construction makes the response carry the identifier of its request. -/
theorem Construction.carries {way : Construction} {req built : Message} {tid : UInt16}
    (asked : req.transactionIdentifier = .ok tid) (made : way.build req tid = .ok built) :
    Carries built tid ∧ built.isResponse = way.setsFlag := by
  cases way with
  | ofMessage =>
      cases made
      exact ⟨(carries_iff.mpr asked).of_cells rfl fun _ _ => rfl, rfl⟩
  | onLayer backend content =>
      simp only [Construction.build, bind_eq_ok_iff] at made
      rcases made with ⟨resp, created, numbered⟩
      rcases carries_setTransactionIdentifier numbered with ⟨carries, sameFlag⟩
      exact ⟨carries, sameFlag.trans (create_unflagged created)⟩
  | onDevice backend content =>
      simp only [Construction.build, bind_eq_ok_iff] at made
      rcases made with ⟨resp, created, numbered⟩
      rcases carries_setTransactionIdentifier numbered with ⟨carries, sameFlag⟩
      exact ⟨carries, sameFlag.trans (create_unflagged created)⟩

/-- The three words in front of the unit identifier: the preparation renews the identifiers of an
unflagged message only. -/
theorem withTcpHeader_words {msg : Message} (number : UInt16) (tcp : msg.net = .tcp)
    (header : 6 ≤ msg.adu.length) :
    (msg.withTcpHeader number).word (-7) =
        (if msg.isResponse then msg.word (-7) else .ok number) ∧
      (msg.withTcpHeader number).word (-5) =
        (if msg.isResponse then msg.word (-5) else .ok 0) ∧
      (msg.withTcpHeader number).word (-3) = .ok (UInt16.ofNat (msg.size + 1)) := by
  have begin_eq : msg.pduBegin = 7 := by simp [pduBegin, tcp, Net.headerLength]
  have framed : (msg.withTcpHeader number).pduBegin = 7 := begin_eq
  have first : (msg.withTcpHeader number).pduBegin + -7 = (0 : ℕ) := by omega
  have second : (msg.withTcpHeader number).pduBegin + -5 = (2 : ℕ) := by omega
  have third : (msg.withTcpHeader number).pduBegin + -3 = (4 : ℕ) := by omega
  refine ⟨?_, ?_, ?_⟩
  · split
    · next flag =>
        apply word_congr first (by omega)
        · simp [withTcpHeader, flag]
        · simp [withTcpHeader, flag]
    · next unset =>
        apply word_of_bytes first
        · simp [withTcpHeader, unset, show 0 < msg.adu.length by omega]
        · simp [withTcpHeader, unset, show 1 < msg.adu.length by omega]
  · split
    · next flag =>
        apply word_congr second (by omega)
        · simp [withTcpHeader, flag]
        · simp [withTcpHeader, flag]
    · next unset =>
        apply word_of_bytes second
        · simp [withTcpHeader, unset, show 2 < msg.adu.length by omega]
        · simp [withTcpHeader, unset, show 3 < msg.adu.length by omega]
  · apply word_of_bytes third
    · simp only [withTcpHeader]
      split <;> simp [show 4 < msg.adu.length by omega]
    · simp only [withTcpHeader]
      split <;> simp [show 5 < msg.adu.length by omega]

theorem Path.prepareToSend_ok {path : Path} {msg : Message} {counter : UInt16}
    (tcp : msg.net = .tcp) (nonempty : 1 ≤ msg.size) (header : 6 ≤ msg.adu.length) :
    ∃ prepared next, path.prepareToSend (.tcp counter) msg = .ok (true, prepared, next) ∧
      ∃ counted : Message, SameFrame counted msg ∧
        prepared = counted.withTcpHeader (path.number msg counter) := by
  have throughLayer : NetLayer.prepareToSend (.tcp counter) msg = .ok (true,
      msg.withTcpHeader counter, .tcp (if msg.isResponse then counter else counter + 1)) := by
    simp only [NetLayer.prepareToSend, tcp_prepareToSend_ok counter tcp nonempty header, ok_bind,
      pure_eq_ok]
  cases path with
  | backend => exact ⟨_, _, throughLayer, msg, SameFrame.refl msg, rfl⟩
  | message =>
      by_cases kept : msg.backend = true
      · have number_eq : Path.message.number msg counter = counter := by
          simp only [Path.number, if_pos kept]
        have delegated : Path.message.prepareToSend (.tcp counter) msg =
            NetLayer.prepareToSend (.tcp counter) msg := by
          simp only [Path.prepareToSend, Message.prepareToSend, if_pos kept]
        exact ⟨_, _, delegated.trans throughLayer, msg, SameFrame.refl msg, by rw [number_eq]⟩
      · have number_eq : Path.message.number msg counter = msg.transactionId := by
          simp only [Path.number, if_neg kept]
        let counted := { msg with
          transactionId := if msg.isResponse then msg.transactionId else msg.transactionId + 1 }
        have own : msg.prepareToSend (.tcp counter) = .ok (true,
            counted.withTcpHeader msg.transactionId, .tcp counter) :=
          own_tcp_prepareToSend_ok (by simpa using kept) tcp nonempty header
        exact ⟨_, _, own, counted, ⟨rfl, rfl, rfl, rfl⟩, by rw [number_eq]⟩

/-- A response built for a request keeps its identifier exactly when the response flag is set, or
when the number that replaces the identifier happens to be the same. -/
theorem paired_iff_flagged {req built resp : Message} {tid counter : UInt16} {way : Construction}
    {completions : List Completion} {path : Path} (asked : req.transactionIdentifier = .ok tid)
    (made : way.build req tid = .ok built)
    (spares : ∀ completion ∈ completions, completion.SparesIdentifier)
    (completed : complete built completions = .ok resp) (nonempty : 1 ≤ resp.size)
    (header : 6 ≤ resp.adu.length) :
    Paired resp tid path (.tcp counter) ↔
      flagged way completions = true ∨
        (path.number resp counter = tid ∧ resp.word (-5) = .ok 0) := by
  rcases Construction.carries asked made with ⟨builtCarries, builtFlag⟩
  rcases builtCarries.complete spares completed with ⟨carries, flag⟩
  rw [builtFlag] at flag
  change resp.isResponse = flagged way completions at flag
  rcases Path.prepareToSend_ok carries.tcp nonempty header with
    ⟨prepared, next, done, counted, same, frame⟩
  have countedTcp : counted.net = .tcp := same.net_eq.trans carries.tcp
  have words := withTcpHeader_words (path.number resp counter) countedTcp (same.adu_eq ▸ header)
  have sameWord : ∀ i, counted.word i = resp.word i := by
    intro i
    simp only [word, pduBegin, same.net_eq, same.adu_eq]
  rw [← frame, sameWord, sameWord, same.isResponse_eq, same.size_eq, flag, carries.identifier]
    at words
  rcases words with ⟨identifier, protocol, length⟩
  have preparedTcp : prepared.net = .tcp := by
    rw [frame]
    exact countedTcp
  have found : prepared.transactionIdentifier = prepared.word (-7) := by
    simp only [transactionIdentifier, if_neg (not_not.mpr preparedTcp)]
  constructor
  · rintro ⟨other, after, otherDone, otherIdentifier, otherProtocol, _⟩
    rw [done] at otherDone
    cases otherDone
    rw [found, identifier] at otherIdentifier
    rw [protocol] at otherProtocol
    by_cases set : flagged way completions = true
    · left
      exact set
    · right
      rw [if_neg set] at otherIdentifier otherProtocol
      exact ⟨Except.ok.inj otherIdentifier, otherProtocol.symm⟩
  · intro condition
    refine ⟨prepared, next, done, ?_, ?_, length⟩
    · rw [found, identifier]
      split
      · rfl
      · next unset => rw [(condition.resolve_left unset).1]
    · rw [protocol]
      split
      · rfl
      · next unset => exact (condition.resolve_left unset).2.symm

/-- What a layer is given to prepare: a request, whose flag is unset, or a response. -/
inductive Preparation where
  | request (msg : Message) (unflagged : msg.isResponse = false)
  | response (msg : Message)

/-- The message that is prepared. -/
def Preparation.msg : Preparation → Message
  | .request msg _ => msg
  | .response msg => msg

/-- The requests that one TCP layer prepares in a run, in their order. -/
def preparedRequests (counter : UInt16) : List Preparation → Except Fault (List Message)
  | [] => .ok []
  | preparation :: rest => do
      let (done, prepared, next) ← Tcp.prepareToSend counter preparation.msg
      let later ← preparedRequests next rest
      match preparation with
      | .request _ _ => pure (if done then prepared :: later else later)
      | .response _ => pure later

/-- Everything a preparation on TCP can do, if it stays in the buffer. -/
theorem tcp_prepareToSend_cases {counter next : UInt16} {msg prepared : Message} {done : Bool}
    (ran : Tcp.prepareToSend counter msg = .ok (done, prepared, next)) :
    (done = false ∧ next = counter) ∨
      (done = true ∧ prepared = msg.withTcpHeader counter ∧ msg.net = .tcp ∧
        6 ≤ msg.adu.length ∧ next = if msg.isResponse then counter else counter + 1) := by
  by_cases framed : msg.net = .tcp ∧ 1 ≤ msg.size
  · right
    have header : 6 ≤ msg.adu.length := by
      by_contra short
      have outside : ∀ {adu written : List UInt8} {value : UInt8},
          adu.length = msg.adu.length → Storage.write adu 5 value ≠ some written := by
        intro adu written value same stored
        rw [Storage.write_eq_some_iff] at stored
        omega
      by_cases flag : msg.isResponse = true
      · simp only [Tcp.prepareToSend, if_pos framed, if_pos flag, pure_eq_ok, ok_bind,
          bind_eq_ok_iff, checked_eq_ok_iff] at ran
        rcases ran with ⟨_, fourth, _, fifth, _⟩
        exact outside (Storage.length_of_write fourth) fifth
      · simp only [Tcp.prepareToSend, if_pos framed, if_neg flag, pure_eq_ok, ok_bind,
          bind_eq_ok_iff, checked_eq_ok_iff] at ran
        rcases ran with ⟨_, first, _, second, _, third, _, fourth, _, fifth, _, sixth, _⟩
        apply outside _ sixth
        rw [Storage.length_of_write fifth, Storage.length_of_write fourth,
          Storage.length_of_write third, Storage.length_of_write second,
          Storage.length_of_write first]
    rw [tcp_prepareToSend_ok counter framed.1 framed.2 header] at ran
    cases ran
    exact ⟨rfl, rfl, framed.1, header, rfl⟩
  · left
    simp only [Tcp.prepareToSend, if_neg framed, pure_eq_ok] at ran
    cases ran
    exact ⟨rfl, rfl⟩

/-- While the responses are flagged the requests of a run are numbered one after the other. -/
theorem preparedRequests_numbered {counter : UInt16} {preparations : List Preparation}
    {sent : List Message} (flags : ∀ msg, .response msg ∈ preparations → msg.isResponse = true)
    (ran : preparedRequests counter preparations = .ok sent) (place : ℕ) (req : Message)
    (found : sent[place]? = some req) :
    req.transactionIdentifier = .ok (counter + UInt16.ofNat place) := by
  induction preparations generalizing counter sent place with
  | nil =>
      cases ran
      cases found
  | cons preparation rest ih =>
      simp only [preparedRequests, bind_eq_ok_iff] at ran
      rcases ran with ⟨⟨done, prepared, next⟩, first, later, others, collected⟩
      have remaining : ∀ msg, .response msg ∈ rest → msg.isResponse = true := by
        intro msg mem
        exact flags msg (List.mem_cons_of_mem _ mem)
      rcases tcp_prepareToSend_cases first with ⟨rfl, rfl⟩ | ⟨rfl, frame, tcp, header, rfl⟩
      · have same : sent = later := by
          cases preparation <;> cases collected <;> rfl
        exact ih remaining others place (same ▸ found)
      · cases preparation with
        | response msg =>
            cases collected
            have flag : msg.isResponse = true := flags msg (List.mem_cons_self ..)
            rw [Preparation.msg, if_pos flag] at others
            exact ih remaining others place found
        | request msg unflagged =>
            cases collected
            rw [Preparation.msg, unflagged, if_neg Bool.false_ne_true] at others
            cases place with
            | zero =>
                cases found
                have words := (withTcpHeader_words counter tcp header).1
                rw [Preparation.msg, unflagged, if_neg Bool.false_ne_true] at words
                have preparedTcp : (Message.withTcpHeader msg counter).net = .tcp := tcp
                rw [frame]
                simp only [Preparation.msg, transactionIdentifier,
                  if_neg (not_not.mpr preparedTcp), words]
                simp
            | succ place =>
                rw [ih remaining others place found]
                congr 1
                rw [UInt16.add_assoc]
                congr 1
                rw [Nat.add_comm, UInt16.ofNat_add]
                rfl

/-- Among 65536 requests in a row no two carry the same identifier, if every response in between is
flagged. -/
theorem preparedRequests_distinct {counter : UInt16} {preparations : List Preparation}
    {sent : List Message} (flags : ∀ msg, .response msg ∈ preparations → msg.isResponse = true)
    (ran : preparedRequests counter preparations = .ok sent) {i j : ℕ} {first second : Message}
    (before : i < j) (near : j < i + 65536) (firstSent : sent[i]? = some first)
    (secondSent : sent[j]? = some second) :
    first.transactionIdentifier ≠ second.transactionIdentifier := by
  intro same
  rw [preparedRequests_numbered flags ran i first firstSent,
    preparedRequests_numbered flags ran j second secondSent] at same
  have numbers := congrArg UInt16.toNat (Except.ok.inj same)
  simp only [UInt16.toNat_add, UInt16.toNat_ofNat'] at numbers
  omega

/-- A response keeps the identifier of its request exactly when it is flagged, apart from the number
that happens to be the same, and requests prepared among flagged responses have numbers of their
own. -/
theorem transactions_paired_iff {counter : UInt16} :
    (∀ {req built resp : Message} {tid : UInt16} {way : Construction}
      {completions : List Completion} {path : Path}, req.transactionIdentifier = .ok tid →
      way.build req tid = .ok built →
      (∀ completion ∈ completions, completion.SparesIdentifier) →
      complete built completions = .ok resp → 1 ≤ resp.size → 6 ≤ resp.adu.length →
      (Paired resp tid path (.tcp counter) ↔ flagged way completions = true ∨
        (path.number resp counter = tid ∧ resp.word (-5) = .ok 0))) ∧
      ∀ {preparations : List Preparation} {sent : List Message},
        (∀ msg, .response msg ∈ preparations → msg.isResponse = true) →
        preparedRequests counter preparations = .ok sent →
        ∀ {i j : ℕ} {first second : Message}, i < j → j < i + 65536 → sent[i]? = some first →
          sent[j]? = some second →
          first.transactionIdentifier ≠ second.transactionIdentifier := by
  constructor
  · intro req built resp tid way completions path asked made spares completed nonempty header
    exact paired_iff_flagged asked made spares completed nonempty header
  · intro preparations sent flags ran i j first second before near firstSent secondSent
    exact preparedRequests_distinct flags ran before near firstSent secondSent

/-- A read request with identifier `0x1234`, answered by a copy, and a run of two requests. -/
theorem transactions_paired_iff_of_copy :
    let req : Message :=
      { net := .tcp, onWire := NetLayer.net_ne_noNet (.tcp 0), aduSize := 12, isResponse := false
        backend := true, transactionId := 1
        adu := [0x12, 0x34, 0, 0, 0, 6, 255, 3, 0, 0, 0, 1] }
    Paired { req with isResponse := true } 0x1234 .message (.tcp 7) ∧
      ∃ first second,
        preparedRequests 65535 [.request req rfl, .response { req with isResponse := true },
          .request req rfl] = .ok [first, second] ∧
        first.transactionIdentifier ≠ second.transactionIdentifier := by
  intro req
  constructor
  · have iff := (transactions_paired_iff.1 rfl rfl (by simp) rfl (by decide) (by decide) :
      Paired { req with isResponse := true } 0x1234 .message (.tcp 7) ↔
        flagged .ofMessage [] = true ∨ _)
    exact iff.mpr (Or.inl rfl)
  · have flags : ∀ msg, Preparation.response msg ∈ [.request req rfl,
        .response { req with isResponse := true }, .request req rfl] → msg.isResponse = true := by
      simp
    exact ⟨_, _, rfl, transactions_paired_iff.2 flags rfl (Nat.zero_lt_one) (by decide) rfl rfl⟩

/-- A response built on the layer and numbered like its request is sent with the next number of the
layer instead. -/
theorem built_response_renumbered :
    ∃ req built : Message, ∃ next,
      req.net = .tcp ∧ req.isResponse = false ∧ req.transactionIdentifier = .ok 0x1234 ∧
      Construction.build (.onLayer (.tcp 1) (.adu [0, 0, 0, 0, 0, 0, 255, 3, 2, 0, 7])) req 0x1234 =
        .ok built ∧
      built.transactionIdentifier = .ok 0x1234 ∧
      (∃ prepared, Path.message.prepareToSend (.tcp 1) built = .ok (true, prepared, next) ∧
        prepared.transactionIdentifier = .ok 1) ∧
      ¬Paired built 0x1234 .message (.tcp 1) := by
  let req : Message :=
    { net := .tcp, onWire := NetLayer.net_ne_noNet (.tcp 0), aduSize := 12, isResponse := false
      backend := true, transactionId := 1, adu := [0x12, 0x34, 0, 0, 0, 6, 255, 3, 0, 0, 0, 1] }
  have made : Construction.build (.onLayer (.tcp 1) (.adu [0, 0, 0, 0, 0, 0, 255, 3, 2, 0, 7])) req
      0x1234 = .ok { req with aduSize := 11, adu := [0x12, 0x34, 0, 0, 0, 0, 255, 3, 2, 0, 7] } := by
    simp only [Construction.build, create, Origin.blank, blank_eq, ok_bind, pure_eq_ok]
    rfl
  refine ⟨req, _, _, rfl, rfl, by decide, made, by decide, ⟨_, rfl, by decide⟩, ?_⟩
  rintro ⟨prepared, next, done, identifier, _⟩
  cases done
  cases identifier

end Response

end Modbuspp
