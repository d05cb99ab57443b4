import ShardedGraph.Http
import ShardedGraph.Proofs.Relays
import ShardedGraph.Proofs.Utf8

/-!
# Shards over HTTP and in one process

The routes of services are reached when posting to the location of an address runs the route for
requests of the service at this place (`Http.Reaches`). How the octets travel is not looked at, nor
what the runtime reports of a stop, which may differ from one answer to the next.

**One call.** A request whose octets fit a body is read by the route as it was sent, and its service
is asked once. A reply goes back in a body, and is read from it just as it would be read in one
process; an error goes back with its wording, which arrives letter by letter. A body that is no
request, or is too large, is refused before any service is asked (`Http.route_encode`,
`Http.route_of_not_request`, `Http.route_of_tooLarge`).

**Stops.** Here the two part: over a network a shard outlives the stop of its service and says that
there was one, and in one process the client stops with it. Neither is a reply.

**Whole acts.** So a transport over HTTP relays the transport to the same services in one process,
within the limit on bodies (`Http.relays_inProcess`), and with it everything that a client does
(`Http.agrees_inProcess`).
-/

set_option autoImplicit false

namespace ShardedGraph

/-- The octets of a request fit a body. -/
def Request.FitsBody (request : Request) : Prop :=
  (Wire.request.encode request).length ≤ Http.bodyLimit

instance (request : Request) : Decidable request.FitsBody :=
  inferInstanceAs (Decidable (_ ≤ _))

/-- What fits a body can be sent. -/
theorem Request.FitsBody.lengthsFit {request : Request} (fits : request.FitsBody) :
    LengthsFit request.lengths := by
  intro length member
  have inside := Wire.areForms_request.length_add_le request member
  have small : length + 12 ≤ 256 * 1024 * 1024 := Nat.le_trans inside fits
  have room : 256 * 1024 * 1024 < UInt64.size := by decide
  omega

/-- An error of a call with this text. -/
def Error.IsOfCall (error : Error) (text : String) : Prop :=
  error.kind = .rpc ∧ error.message = opening .rpc ++ text

theorem Error.isOfCall_refused (shard : Nat) (text : String) :
    (refused shard "500 Internal Server Error" text).IsOfCall
      s!"shard {shard} answered 500 Internal Server Error: {text}" := by
  have joined : " answered " ++ "500 Internal Server Error" ++ ": " =
      " answered 500 Internal Server Error: " := by decide +kernel
  refine ⟨rfl, congrArg (opening .rpc ++ ·) ?_⟩
  change "shard " ++ toString shard ++ " answered " ++ "500 Internal Server Error" ++ ": " ++ text =
    "shard " ++ toString shard ++ " answered 500 Internal Server Error: " ++ text
  rw [← joined]
  simp only [String.append_assoc]

theorem Error.isOfCall_panicked (shard : Nat) (report : String) :
    (refused shard "500 Internal Server Error" ("handler panicked: " ++ report)).IsOfCall
      s!"shard {shard} answered 500 Internal Server Error: handler panicked: {report}" := by
  have joined : " answered 500 Internal Server Error: " ++ "handler panicked: " =
      " answered 500 Internal Server Error: handler panicked: " := by decide +kernel
  obtain ⟨kind, message⟩ := isOfCall_refused shard ("handler panicked: " ++ report)
  refine ⟨kind, message.trans (congrArg (opening .rpc ++ ·) ?_)⟩
  change "shard " ++ toString shard ++ " answered 500 Internal Server Error: " ++
      ("handler panicked: " ++ report) =
    "shard " ++ toString shard ++ " answered 500 Internal Server Error: handler panicked: " ++ report
  rw [← joined]
  simp only [String.append_assoc]

namespace Http

/-! ## Routes -/

section Routes

variable (report : Error → String) (service : Service)

/-- The text for an error that is answered is its wording. -/
theorem errorText_of_answered {error : Error} (answered : error.stops = false) :
    errorText report error = error.message := by
  rw [errorText, answered, if_neg Bool.false_ne_true]

/-- The text for a stop is what is reported of it. -/
theorem errorText_of_stops {error : Error} (stops : error.stops = true) :
    errorText report error = "handler panicked: " ++ report error := by
  rw [errorText, if_pos stops]

/-- What is posted to the route for requests is answered. -/
theorem route_rpc (body : List UInt8) :
    route report service "POST" "/rpc" body = answer report service body := by
  have path : pathOf "/rpc" = "/rpc" := by decide +kernel
  rw [route, path]
  rfl

/-- A request that fits is asked once: its reply is in the body, or the text for its error. -/
theorem route_encode {request : Request} (fits : request.FitsBody) (stream : WordStream) :
    (route report service "POST" "/rpc" (Wire.request.encode request)).run stream =
      match runFrom (service request) stream with
      | (.ok reply, later) => (⟨.ok, Wire.reply.encode reply⟩, later)
      | (.error error, later) => (.ofText .internalError (errorText report error), later) := by
  have read := Wire.isExact_request.reads request fits.lengthsFit []
  rw [List.append_nil] at read
  rw [route_rpc, answer, if_neg (Nat.not_lt.mpr fits), read]
  dsimp only
  rw [StateT.run_bind, runFrom]
  rcases StateT.run (service request).run stream with ⟨_ | reply, later⟩
  · rfl
  · rfl

/-- A body that is no request is refused, and no service is asked. -/
theorem route_of_not_request {body : List UInt8} {fault : CodecFault}
    (fits : body.length ≤ bodyLimit) (bad : Wire.request.decode body = .error fault)
    (stream : WordStream) :
    (route report service "POST" "/rpc" body).run stream =
      (.ofText .badRequest ("bad request body: " ++ fault.message), stream) := by
  rw [route_rpc, answer, if_neg (Nat.not_lt.mpr fits), bad]
  rfl

/-- A body that is too large is refused, and no service is asked. -/
theorem route_of_tooLarge {body : List UInt8} (large : bodyLimit < body.length)
    (stream : WordStream) :
    (route report service "POST" "/rpc" body).run stream = (.ofText .tooLarge
      "Failed to buffer the request body: length limit exceeded", stream) := by
  rw [route_rpc, answer, if_pos large]
  rfl

end Routes

/-! ## Responses -/

/-- A body that comes with success is read as a reply. -/
theorem readResponse_ok (shard : Nat) (body : List UInt8) :
    readResponse shard (some ⟨.ok, body⟩) = Wire.read Wire.reply body := by
  rw [readResponse, if_pos (show Status.ok.isSuccess = true from rfl)]

/-- A text that comes without success is reported as it was written. -/
theorem readResponse_ofText (shard : Nat) {status : Status} (failed : status.isSuccess = false)
    (text : String) :
    readResponse shard (some (.ofText status text)) = .error (.refused shard status.text text) := by
  have failed' : ¬(Response.ofText status text).status.isSuccess = true := by
    rw [Response.ofText, failed]
    exact Bool.false_ne_true
  rw [readResponse, if_neg failed', Response.ofText, Text.readUtf8Lossy_writeUtf8,
    String.ofList_toList]

/-! ## Networks -/

/-- A network reaches services at addresses: what is posted to the location of an address is
answered by the service at its place, with some report of a stop. -/
structure Reaches (network : Network WordStream) (addresses : List String)
    (services : List Service) : Prop where
  counts : addresses.length = services.length
  posts : ∀ (shard : Nat) address service, addresses[shard]? = some address →
    services[shard]? = some service → ∀ body stream, ∃ report,
      (network (location address) body).run stream =
        (some <$> route report service "POST" "/rpc" body).run stream

/-- The entry with a key is found when no other entry has this key. -/
theorem find?_zip {β : Type} {keys : List String} {values : List β} (apart : keys.Nodup)
    {place : Nat} {key : String} {value : β} (here : keys[place]? = some key)
    (there : values[place]? = some value) :
    (keys.zip values).find? (fun entry => entry.1 == key) = some (key, value) := by
  induction keys generalizing values place with
  | nil => cases here
  | cons first keys ih =>
      cases values with
      | nil => cases there
      | cons head values =>
          obtain ⟨other, apart⟩ := List.nodup_cons.mp apart
          cases place with
          | zero =>
              cases here
              cases there
              exact List.find?_cons_of_pos (beq_self_eq_true key)
          | succ place =>
              have differs : (first == key) = false := beq_false_of_ne fun same =>
                other (same ▸ List.mem_of_getElem? here)
              rw [List.zip_cons_cons, List.find?_cons]
              dsimp only
              rw [differs]
              exact ih apart here there

/-- Services at different locations are reached in the network that they serve. -/
theorem reaches_serving (report : Error → String) {addresses : List String}
    {services : List Service} (counts : addresses.length = services.length)
    (apart : (addresses.map location).Nodup) :
    Reaches (serving report ((addresses.map location).zip services)) addresses services := by
  refine ⟨counts, fun shard address service here there body stream => ⟨report, ?_⟩⟩
  have known : (addresses.map location)[shard]? = some (location address) := by
    rw [List.getElem?_map, here, Option.map_some]
  rw [serving, find?_zip apart known there, route_rpc]
  rfl

section Calls

variable {network : Network WordStream} {addresses : List String} {services : List Service}
  {service : Service} {shard : Nat}

/-- A call to a shard in one process runs its service. -/
theorem call_inProcess (there : services[shard]? = some service) (request : Request)
    (stream : WordStream) :
    ((Transport.inProcess services).call shard request).run stream =
      (.now (runFrom (Transport.serve service shard request) stream).1,
        (runFrom (Transport.serve service shard request) stream).2) := by
  dsimp only [Transport.inProcess]
  rw [there]
  rfl

theorem call_inProcess_of_none (nobody : services[shard]? = none) (request : Request)
    (stream : WordStream) :
    ((Transport.inProcess services).call shard request).run stream =
      (.now (.error (.unknownShard shard services.length)), stream) := by
  dsimp only [Transport.inProcess]
  rw [nobody]
  rfl

/-- A call over a network posts the request. -/
theorem call_transport (reaches : Reaches network addresses services)
    (there : services[shard]? = some service) (request : Request) (stream : WordStream) :
    ∃ report, ((transport network addresses).call shard request).run stream =
      let answered := (route report service "POST" "/rpc" (Wire.request.encode request)).run stream
      (.now (readResponse shard (some answered.1)), answered.2) := by
  obtain ⟨inside, -⟩ := List.getElem?_eq_some_iff.mp there
  have here := List.getElem?_eq_getElem (Nat.lt_of_lt_of_eq inside reaches.counts.symm)
  obtain ⟨report, posted⟩ :=
    reaches.posts shard _ service here there (Wire.request.encode request) stream
  refine ⟨report, ?_⟩
  dsimp only [transport]
  rw [here]
  dsimp only
  rw [StateT.run_bind, posted]
  rfl

theorem call_transport_of_none (reaches : Reaches network addresses services)
    (nobody : services[shard]? = none) (request : Request) (stream : WordStream) :
    ((transport network addresses).call shard request).run stream =
      (.now (.error (.unknownShard shard addresses.length)), stream) := by
  have outside := List.getElem?_eq_none_iff.mp nobody
  rw [← reaches.counts] at outside
  dsimp only [transport]
  rw [List.getElem?_eq_none outside]
  rfl

/-- In one process, the reply of a service arrives as it is written and read. -/
theorem call_inProcess_of_fits (there : services[shard]? = some service) {request : Request}
    (fits : request.FitsBody) (stream : WordStream) :
    ((Transport.inProcess services).call shard request).run stream =
      match runFrom (service request) stream with
      | (.ok reply, later) => (.now (Transport.throughWire Wire.reply reply), later)
      | (.error error, later) => (.now (.error (.ofShard shard error)), later) := by
  have sent := Wire.isExact_request.reads request fits.lengthsFit
  rw [call_inProcess there, Transport.runFrom_serve service shard sent]
  rcases runFrom (service request) stream with ⟨_ | reply, later⟩
  · rfl
  · rfl

/-- Over a network, too; the text for an error arrives as it is. -/
theorem call_transport_of_fits (reaches : Reaches network addresses services)
    (there : services[shard]? = some service) {request : Request} (fits : request.FitsBody)
    (stream : WordStream) :
    ∃ report, ((transport network addresses).call shard request).run stream =
      match runFrom (service request) stream with
      | (.ok reply, later) => (.now (Transport.throughWire Wire.reply reply), later)
      | (.error error, later) => (.now (.error
          (.refused shard "500 Internal Server Error" (errorText report error))), later) := by
  obtain ⟨report, called⟩ := call_transport reaches there request stream
  refine ⟨report, ?_⟩
  rw [called, route_encode report service fits]
  have status : Status.internalError.text = "500 Internal Server Error" := by decide +kernel
  rcases runFrom (service request) stream with ⟨error | reply, later⟩
  · dsimp only
    rw [readResponse_ofText shard rfl, status]
  · dsimp only
    rw [readResponse_ok]
    rfl

/-- A request that does not fit is refused over a network. -/
theorem call_transport_of_not_fits (reaches : Reaches network addresses services)
    (there : services[shard]? = some service) {request : Request} (large : ¬request.FitsBody)
    (stream : WordStream) :
    ∃ error, ((transport network addresses).call shard request).run stream =
      (.now (.error error), stream) := by
  obtain ⟨report, called⟩ := call_transport reaches there request stream
  rw [called, route_of_tooLarge report service (Nat.lt_of_not_le large)]
  dsimp only
  rw [readResponse_ofText shard rfl]
  exact ⟨_, rfl⟩

/-- Over a network, services are relayed as long as requests fit a body. -/
theorem relays_inProcess (reaches : Reaches network addresses services) :
    (transport network addresses).Relays (.inProcess services) Request.FitsBody where
  shards := reaches.counts
  prompt shard request stream := by
    cases there : services[shard]? with
    | none => exact ⟨_, _, call_inProcess_of_none there request stream⟩
    | some service => exact ⟨_, _, call_inProcess there request stream⟩
  prompt_other shard request stream := by
    cases there : services[shard]? with
    | none => exact ⟨_, _, call_transport_of_none reaches there request stream⟩
    | some service =>
        obtain ⟨report, called⟩ := call_transport reaches there request stream
        exact ⟨_, _, called⟩
  replies_iff shard request stream reply later := by
    cases there : services[shard]? with
    | none =>
        rw [call_inProcess_of_none there, call_transport_of_none reaches there]
        exact iff_of_false nofun fun both => nomatch both.1
    | some service =>
        by_cases fits : request.FitsBody
        · obtain ⟨report, called⟩ := call_transport_of_fits reaches there fits stream
          rw [call_inProcess_of_fits there fits, called, and_iff_left fits]
          rcases runFrom (service request) stream with ⟨error | answer, after⟩
          · exact iff_of_false nofun nofun
          · exact Iff.rfl
        · obtain ⟨error, refused⟩ := call_transport_of_not_fits reaches there fits stream
          rw [refused]
          exact iff_of_false nofun fun both => fits both.2

end Calls

/-- **Shards over HTTP and in one process agree.** Let a network reach services. For a request that
fits a body, and any chance, the route of a service answers with success and a body that is read as
a reply exactly when the shard gives this reply in the same process, and then both leave the same
chance. When the service fails, the route answers with an internal error and the wording of the
failure; the client hears of an error of its call, which in the same process shows the shard and
this wording, and over the network the status as well. When the service stops, the route answers
with an internal error and the report of the stop, of which a client over the network hears as of
other failures, while a client in the same process stops, too. A body that is no request is refused
whatever the service is, and takes nothing from its chance. So over the network a shard gives a
reply exactly when it gives it in the same process and the request fits a body; and a client
connects, and does all that it does, exactly when it does so in the same process and all its
requests fit, with the same value. -/
theorem agrees_inProcess {network : Network WordStream} {addresses : List String}
    {services : List Service} (reaches : Reaches network addresses services) :
    (∀ (shard : Nat) service, services[shard]? = some service →
      ∀ request : Request, request.FitsBody → ∀ stream,
        (∀ report reply later,
          (∃ body,
              (route report service "POST" "/rpc" (Wire.request.encode request)).run stream =
                (⟨.ok, body⟩, later) ∧ Wire.read Wire.reply body = .ok reply) ↔
            ((Transport.inProcess services).call shard request).run stream =
              (.now (.ok reply), later)) ∧
        (∀ error later, runFrom (service request) stream = (.error error, later) →
          error.stops = false →
            (∀ report,
              (route report service "POST" "/rpc" (Wire.request.encode request)).run stream =
                (.ofText .internalError error.message, later)) ∧
            ∃ inside outside : Error,
              inside.IsOfCall s!"shard {shard}: {error.message}" ∧
              outside.IsOfCall
                s!"shard {shard} answered 500 Internal Server Error: {error.message}" ∧
              ((Transport.inProcess services).call shard request).run stream =
                (.now (.error inside), later) ∧
              ((transport network addresses).call shard request).run stream =
                (.now (.error outside), later)) ∧
        ∀ error later, runFrom (service request) stream = (.error error, later) →
          error.stops = true →
            (∀ report,
              (route report service "POST" "/rpc" (Wire.request.encode request)).run stream =
                (.ofText .internalError ("handler panicked: " ++ report error), later)) ∧
            ((Transport.inProcess services).call shard request).run stream =
              (.now (.error error), later) ∧
            ∃ (report : String) (outside : Error),
              outside.IsOfCall
                s!"shard {shard} answered 500 Internal Server Error: handler panicked: {report}" ∧
              ((transport network addresses).call shard request).run stream =
                (.now (.error outside), later)) ∧
    (∀ body fault, body.length ≤ bodyLimit → Wire.request.decode body = .error fault →
      ∀ report service stream, (route report service "POST" "/rpc" body).run stream =
        (.ofText .badRequest ("bad request body: " ++ fault.message), stream)) ∧
    (transport network addresses).Relays (.inProcess services) Request.FitsBody ∧
    (∀ config, Relayed Request.FitsBody
      ((fun cluster => cluster.movedTo (transport network addresses)) <$>
        Cluster.connect (.inProcess services) config)
      ((fun cluster => cluster.movedTo (transport network addresses)) <$>
        Cluster.connect (Transport.rehearsed (.inProcess services)) config)
      (Cluster.connect (transport network addresses) config)) ∧
    ∀ cluster : Cluster WordStream, cluster.link.transport = .inProcess services →
      cluster.RelayedOver (transport network addresses) Request.FitsBody := by
  have relays := relays_inProcess reaches
  refine ⟨fun shard service there request fits stream => ?_,
    fun body fault few bad report service stream => ?_, relays, Cluster.relayed_connect relays,
    fun cluster same => Cluster.relayedOver (same ▸ relays)⟩
  · obtain ⟨said, called⟩ := call_transport_of_fits reaches there fits stream
    rw [call_inProcess_of_fits there fits, called]
    refine ⟨fun report reply later => ?_, fun error later failed answered => ?_,
      fun error later failed stops => ?_⟩
    · rw [route_encode report service fits]
      rcases runFrom (service request) stream with ⟨error | answer, after⟩
      · refine iff_of_false ?_ nofun
        rintro ⟨body, same, -⟩
        cases same
      · constructor
        · rintro ⟨body, same, read⟩
          cases same
          rw [← read]
          rfl
        · intro same
          obtain ⟨heard, rfl⟩ := Prod.mk_inj.mp same
          exact ⟨_, rfl, congrArg Outcome.answer heard⟩
    · rw [failed]
      dsimp only
      rw [Error.ofShard_of_answered shard answered, errorText_of_answered said answered]
      refine ⟨fun report => ?_, .remote shard error,
        .refused shard "500 Internal Server Error" error.message,
        ⟨rfl, rfl⟩, Error.isOfCall_refused shard error.message, rfl, rfl⟩
      rw [route_encode report service fits, failed, ← errorText_of_answered report answered]
    · rw [failed]
      dsimp only
      rw [Error.ofShard_of_stops shard stops, errorText_of_stops said stops]
      refine ⟨fun report => ?_, rfl, said error,
        .refused shard "500 Internal Server Error" ("handler panicked: " ++ said error),
        Error.isOfCall_panicked shard (said error), rfl⟩
      rw [route_encode report service fits, failed, ← errorText_of_stops report stops]
  · exact route_of_not_request report service few bad stream

/-- Where two partitions are reached. -/
def mixedAddresses : List String := ["127.0.0.1:7000", "http://shard-1:7001/"]

/-- The network of these partitions. -/
def mixedNetwork : Network WordStream :=
  serving Error.message
    ((mixedAddresses.map location).zip [evenPartition.answer, oddPartition.answer])

/-- More negatives than any list holds, without a node that is no candidate. -/
def boundlessRequest : Request := .independentNegatives ⟨18446744073709551615, [2], [5]⟩

/-- Two partitions that are reached over a network: one of them does not know a key, and stops at
a request for negatives without bound; no octets are no request; and a client connects, because all
that it asks for fits; then all that it does is the same over the network. -/
theorem agrees_inProcess_mixed :
    Reaches mixedNetwork mixedAddresses [evenPartition.answer, oddPartition.answer] ∧
      (Request.metaValue "none").FitsBody ∧ boundlessRequest.FitsBody ∧
      runFrom (evenPartition.answer (.metaValue "none")) (.cycle #[]) =
        (.error (.unknownMetaKey "none"), .cycle #[]) ∧
      (route Error.message evenPartition.answer "POST" "/rpc"
          (Wire.request.encode (.metaValue "none"))).run (.cycle #[]) =
        (.ofText .internalError "data error: unknown meta key: none", .cycle #[]) ∧
      (∃ later,
        runFrom (evenPartition.answer boundlessRequest) (.cycle #[]) =
          (.error (.poolTooLong 18446744073709551615), later) ∧
        (route Error.message evenPartition.answer "POST" "/rpc"
            (Wire.request.encode boundlessRequest)).run (.cycle #[]) =
          (.ofText .internalError ("handler panicked: " ++ "capacity overflow"), later)) ∧
      ([] : List UInt8).length ≤ bodyLimit ∧ Wire.request.decode [] = .error .endOfInput ∧
      (route Error.message oddPartition.answer "POST" "/rpc" []).run (.cycle #[]) =
        (.ofText .badRequest "bad request body: io error: unexpected end of file", .cycle #[]) ∧
      ∃ (cluster : Cluster WordStream) (later : World WordStream),
        cluster.link.transport = .inProcess [evenPartition.answer, oddPartition.answer] ∧
        runFrom (Cluster.connect (transport mixedNetwork mixedAddresses) uniformConfig)
          ⟨.cycle #[], .cycle #[]⟩ =
            (.ok (cluster.movedTo (transport mixedNetwork mixedAddresses)), later) ∧
        cluster.RelayedOver (transport mixedNetwork mixedAddresses) Request.FitsBody := by
  have reaches : Reaches mixedNetwork mixedAddresses [evenPartition.answer, oddPartition.answer] :=
    reaches_serving Error.message rfl (by decide +kernel)
  have fits : (Request.metaValue "none").FitsBody := by decide +kernel
  have fits' : boundlessRequest.FitsBody := by decide +kernel
  have failed : runFrom (evenPartition.answer (.metaValue "none")) (.cycle #[]) =
      (.error (.unknownMetaKey "none"), .cycle #[]) := rfl
  have heard : (runFrom (evenPartition.answer boundlessRequest) (.cycle #[])).1 =
      .error (.poolTooLong 18446744073709551615) := by decide +kernel
  obtain ⟨later, stopped⟩ : ∃ later, runFrom (evenPartition.answer boundlessRequest) (.cycle #[]) =
      (.error (.poolTooLong 18446744073709551615), later) :=
    ⟨_, by rw [← heard]⟩
  have bad : Wire.request.decode [] = .error .endOfInput := rfl
  obtain ⟨calls, refuses, -, connects, acts⟩ := agrees_inProcess reaches
  obtain ⟨-, fails, -⟩ := calls 0 _ rfl _ fits (.cycle #[])
  obtain ⟨-, -, stops⟩ := calls 0 _ rfl _ fits' (.cycle #[])
  refine ⟨reaches, fits, fits', failed, (fails _ _ failed rfl).1 _,
    ⟨later, stopped, (stops _ _ stopped rfl).1 _⟩, Nat.zero_le _, bad,
    refuses _ _ (Nat.zero_le _) bad _ _ _, ?_⟩
  obtain ⟨cluster, later, connected⟩ := connects_mixed
  have moved := @runFrom_bind_of_ok _ _ _ _ (fun cluster : Cluster WordStream =>
    pure (cluster.movedTo (transport mixedNetwork mixedAddresses))) _ _ _ connected
  rw [bind_pure_comp] at moved
  have same : cluster.link.transport = .inProcess [evenPartition.answer, oddPartition.answer] :=
    congrArg Link.transport (Cluster.spec_of_connect connected).2.1
  exact ⟨cluster, later, same, (connects uniformConfig).succeeds moved (by decide +kernel),
    acts cluster same⟩

end Http

end ShardedGraph
