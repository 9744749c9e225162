/-
**The RTMP push client: what it writes.**

`RtmpPushClient` in `crates/protocols/src/rtmp/mod.rs`, after the handshake.  Every message goes
through `write_chunked` with a chunk size that the caller passes: the protocol and command writers
pass the constant 128, the writers of audio and video pass the client's field, which `connect`
sets to the size it announces.

A session is one TCP connection: `connect`, whose progress depends on what the server sends, and
then any sequence of `send_video`, `send_audio` and `close`.

Main definitions:

* `Rtmp.encodeConnect` and the other command builders;
* `Rtmp.ChunkedWrite` — the arguments of one call of `write_chunked`;
* `Rtmp.RtmpPushClient`, with `connect` and `step`;
* `Rtmp.RtmpPushClient.session` — the messages written on one connection, in order.

Main results:

* `Rtmp.RtmpPushClient.session_eq` — every session starts with SetChunkSize and the connect
  command.
-/

import MibeeEye.RtmpReplies

set_option relaxedAutoImplicit false
set_option autoImplicit false

namespace Rtmp

open Wire

/-! ### AMF0 command builders -/

/-- The `tcUrl` of the connect command. -/
def tcUrl (app host : String) (port : UInt16) : String := s!"rtmp://{host}:{port}/{app}"

/-- `RtmpPushClient::encode_connect`. -/
def encodeConnect (app host : String) (port : UInt16) : List UInt8 :=
  (Amf0Value.string "connect").serialize ++ (Amf0Value.number (F64.ofNat 1)).serialize ++
    (Amf0Value.object [
      ("app", .string app),
      ("tcUrl", .string (tcUrl app host port)),
      ("flashVer", .string "FMLE/3.0 (compatible; mibeerec)"),
      ("swfUrl", .string ""),
      ("fpad", .boolean false),
      ("capabilities", .number (F64.ofNat 239)),
      ("audioCodecs", .number (F64.ofNat 3575)),
      ("videoCodecs", .number (F64.ofNat 252)),
      ("videoFunction", .number (F64.ofNat 1)),
      ("pageUrl", .string ""),
      ("objectEncoding", .number (F64.ofNat 0))]).serialize ++
    (Amf0Value.object [("level", .string "status")]).serialize

/-- `RtmpPushClient::encode_create_stream`. -/
def encodeCreateStream : List UInt8 :=
  (Amf0Value.string "createStream").serialize ++ (Amf0Value.number (F64.ofNat 2)).serialize ++
    Amf0Value.null.serialize

/-- `RtmpPushClient::encode_publish`. -/
def encodePublish (streamName : String) : List UInt8 :=
  (Amf0Value.string "publish").serialize ++ (Amf0Value.number (F64.ofNat 0)).serialize ++
    Amf0Value.null.serialize ++ (Amf0Value.string streamName).serialize ++
    (Amf0Value.string "live").serialize

/-- `RtmpPushClient::encode_fcunpublish`. -/
def encodeFcunpublish (streamName : String) : List UInt8 :=
  (Amf0Value.string "FCUnpublish").serialize ++ (Amf0Value.number (F64.ofNat 0)).serialize ++
    Amf0Value.null.serialize ++ (Amf0Value.string streamName).serialize

/-! ### Chunk writing helpers -/

/-- The arguments of a call of `write_chunked`. -/
structure ChunkedWrite where
  chunkStreamId : ℕ
  messageType : MessageType
  messageStreamId : ℕ
  timestamp : ℕ
  chunkSize : ℕ
  data : List UInt8
  deriving DecidableEq, Repr

/-- The bytes of the call. -/
def ChunkedWrite.wire (w : ChunkedWrite) : List UInt8 :=
  writeChunked w.chunkStreamId w.messageType w.messageStreamId w.timestamp w.chunkSize w.data

/-- `RtmpPushClient::write_protocol_message`: chunk stream 2. -/
def writeProtocolMessage (msgType : MessageType) (data : List UInt8) : ChunkedWrite :=
  ⟨2, msgType, 0, 0, 128, data⟩

/-- `RtmpPushClient::write_command_chunk`: chunk stream 3. -/
def writeCommandChunk (messageStreamId timestamp : ℕ) (amfPayload : List UInt8) : ChunkedWrite :=
  ⟨3, .command, messageStreamId, timestamp, 128, amfPayload⟩

/-- `RtmpPushClient::write_data_chunk`. -/
def writeDataChunk (chunkStreamId : ℕ) (msgType : MessageType)
    (messageStreamId timestamp chunkSize : ℕ) (data : List UInt8) : ChunkedWrite :=
  ⟨chunkStreamId, msgType, messageStreamId, timestamp, chunkSize, data⟩

/-! ### The client -/

/-- `CHUNK_SIZE`, the size announced after the handshake. -/
def announcedSize : ℕ := 65536

/-- The client; `connected` says that it holds a socket. -/
structure RtmpPushClient where
  host : String
  port : UInt16
  appName : String
  streamName : String
  connected : Bool := false
  streamId : ℕ := 0
  chunkSize : ℕ := 128
  videoTimestamp : ℕ := 0
  audioTimestamp : ℕ := 0

namespace RtmpPushClient

/-- `RtmpPushClient::new`. -/
def new (host : String) (port : UInt16) (appName streamName : String) : RtmpPushClient :=
  { host, port, appName, streamName }

/-- The acknowledgements a call of `read_until_command` writes. -/
def ackWrites (call : Call) : List ChunkedWrite :=
  call.acks.map fun seq => writeProtocolMessage .acknowledgement (beBytes 4 seq)

/-- What `connect` writes before each of its calls of `read_until_command`. -/
def commandsBefore (client : RtmpPushClient) (streamId : ℕ) : List (List ChunkedWrite) :=
  [[writeProtocolMessage .setChunkSize (beBytes 4 announcedSize),
      writeCommandChunk 0 0 (encodeConnect client.appName client.host client.port)],
    [],
    [writeCommandChunk 0 0 encodeCreateStream],
    [writeCommandChunk streamId 0 (encodePublish client.streamName)]]

/-- What `connect` returns, given its calls (there is at least one). -/
def connectResult (calls : List Call) : Except String Unit :=
  match calls.getLast? with
  | none => .ok ()
  | some call => do
      let values ← call.result
      -- a reply with no further call after it is the last of four, or names no stream
      if calls.length < 4 then
        let _ ← streamIdOf values
      return ()

/-- **`RtmpPushClient::connect`** after the handshake, on a socket that reads as given: what is
written, the client afterwards and the result.  A command is written exactly when the call that
waits for its reply is made. -/
def connect (client : RtmpPushClient) (reads : List (List UInt8)) :
    List ChunkedWrite × RtmpPushClient × Except String Unit :=
  let calls := connectCalls reads
  let streamId := connectStreamId calls
  let writes := ((client.commandsBefore (streamId.getD 0)).zip calls).flatMap fun x =>
    x.1 ++ ackWrites x.2
  let client := { client with
    chunkSize := announcedSize
    streamId := streamId.getD client.streamId }
  match connectResult calls with
  | .ok () => (writes, { client with connected := true }, .ok ())
  | .error e => (writes, client, .error e)

/-- A call of the client's interface after `connect`. -/
inductive Op
  | sendVideo (data : List UInt8) (timestamp : ℕ)
  | sendAudio (data : List UInt8) (timestamp : ℕ)
  | close

/-- `RtmpPushClient::send_video`, `send_audio` and `close`: what is written, and the client
afterwards.  Without a socket nothing is written. -/
def step (client : RtmpPushClient) : Op → List ChunkedWrite × RtmpPushClient
  | .sendVideo data timestamp =>
      let client := { client with videoTimestamp := timestamp }
      if client.connected then
        ([writeDataChunk 5 .video client.streamId timestamp client.chunkSize data], client)
      else ([], client)
  | .sendAudio data timestamp =>
      let client := { client with audioTimestamp := timestamp }
      if client.connected then
        ([writeDataChunk 4 .audio client.streamId timestamp client.chunkSize data], client)
      else ([], client)
  | .close =>
      let writes :=
        if client.connected then [writeCommandChunk 0 0 (encodeFcunpublish client.streamName)]
        else []
      (writes, { client with
        connected := false, streamId := 0, chunkSize := 128
        videoTimestamp := 0, audioTimestamp := 0 })

/-- The messages written by a sequence of calls. -/
def run : RtmpPushClient → List Op → List ChunkedWrite
  | _, [] => []
  | client, op :: ops => (client.step op).1 ++ run (client.step op).2 ops

/-- **The messages a new client writes on one connection**, from the handshake on. -/
def session (host : String) (port : UInt16) (appName streamName : String)
    (reads : List (List UInt8)) (ops : List Op) : List ChunkedWrite :=
  let (writes, client, _) := (new host port appName streamName).connect reads
  writes ++ client.run ops

/-- A script makes at least one call. -/
theorem connectScript_ne_nil {σ : Type} (call : σ → Call × σ) (s : σ) :
    connectScript call s ≠ [] := by
  simp only [connectScript]
  split
  · simp
  · split
    · simp
    · split <;> simp

/-- **Every session starts with SetChunkSize and the connect command**, whatever the server sends
and whatever is called afterwards. -/
theorem session_eq (host : String) (port : UInt16) (appName streamName : String)
    (reads : List (List UInt8)) (ops : List Op) : ∃ rest,
    session host port appName streamName reads ops =
      writeProtocolMessage .setChunkSize (beBytes 4 announcedSize) ::
        writeCommandChunk 0 0 (encodeConnect appName host port) :: rest := by
  have hconnect : ∃ rest, ((new host port appName streamName).connect reads).1 =
      writeProtocolMessage .setChunkSize (beBytes 4 announcedSize) ::
        writeCommandChunk 0 0 (encodeConnect appName host port) :: rest := by
    have hwrites : ((new host port appName streamName).connect reads).1 =
        (((new host port appName streamName).commandsBefore
            ((connectStreamId (connectCalls reads)).getD 0)).zip (connectCalls reads)).flatMap
          fun x => x.1 ++ ackWrites x.2 := by
      simp only [connect]
      split <;> rfl
    obtain ⟨call, calls, hcalls⟩ :=
      List.exists_cons_of_ne_nil (connectScript_ne_nil readUntilCommand reads)
    rw [hwrites, connectCalls, hcalls]
    exact ⟨_, rfl⟩
  obtain ⟨rest, hrest⟩ := hconnect
  refine ⟨rest ++ run ((new host port appName streamName).connect reads).2.1 ops, ?_⟩
  change ((new host port appName streamName).connect reads).1 ++ _ = _
  rw [hrest]
  rfl

end RtmpPushClient

end Rtmp
