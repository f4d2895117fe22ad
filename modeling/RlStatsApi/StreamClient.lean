import RlStatsApi.EventParsing
import RlStatsApi.StreamFraming

/-!
# The stream client

A client keeps the bytes received and not yet parsed. A socket is what its
reads will yield: a piece of the stream, a failure, or a wait at which the
caller drops the future; after the last of them the peer has closed. Asking
for the next event parses the buffer again after each read.
-/

set_option autoImplicit false

namespace RlStatsApi.StreamClient
open RlStatsApi.JsonValue RlStatsApi.Error RlStatsApi.EventParsing RlStatsApi.StreamFraming
open RlStatsApi.TextReader

inductive Read where
  | chunk (b : UInt8) (bs : Bytes)
  | dropped
  | failed

structure Client where
  readBuffer : Bytes
  reader : List Read

/-- What comes of one call: its result, or nothing when its future is dropped. -/
inductive Poll (α : Type) where
  | ready (result : α)
  | dropped

inductive Reconnect where
  | connected (reader : List Read)
  | failed
  | cancelled

def discardLeadingWhitespace (buffer : Bytes) : Bytes := buffer.dropWhile isAsciiWhitespace

section Client

variable (D : Deserializer Json) (read : Reader)

def tryParseEventFromBuffer (buffer : Bytes) : Outcome (Option StatsEvent) × Bytes :=
  let buffer := discardLeadingWhitespace buffer
  if buffer = [] then (.ok none,buffer)
  else
    match D.next buffer with
    | .value value consumed =>
      (some <$> parseStatsEventValue read value.1,buffer.drop consumed)
    | .eof => (.ok none,buffer)
    | .malformed => (.error (.json .malformed),buffer)
    | .finished => (.ok none,buffer)

def nextEvent (buffer : Bytes) : List Read → Poll (Outcome (Option StatsEvent)) × Client
  | [] =>
    match tryParseEventFromBuffer D read buffer with
    | (.ok none,buffer) =>
      let last := tryParseEventFromBuffer D read buffer
      (.ready last.1,⟨last.2,[]⟩)
    | (result,buffer) => (.ready result,⟨buffer,[]⟩)
  | r::reader =>
    match tryParseEventFromBuffer D read buffer with
    | (.ok none,buffer) =>
      match r with
      | .chunk b bs => nextEvent (buffer++b::bs) reader
      | .dropped => (.dropped,⟨buffer,reader⟩)
      | .failed => (.ready (.error .socketIo),⟨buffer,reader⟩)
    | (result,buffer) => (.ready result,⟨buffer,r::reader⟩)

def Client.nextEvent (c : Client) : Poll (Outcome (Option StatsEvent)) × Client :=
  StreamClient.nextEvent D read c.readBuffer c.reader

def Client.connect (reader : List Read) : Client := ⟨[],reader⟩

def Client.reconnect (c : Client) : Reconnect → Poll (Outcome Unit) × Client
  | .connected reader => (.ready (.ok ()),⟨[],reader⟩)
  | .failed => (.ready (.error .socketIo),c)
  | .cancelled => (.dropped,c)

/-! ## Runs -/

inductive Op where
  | next
  | reconnect (r : Reconnect)

/-- The results of the calls of a run that were not dropped. -/
def run : List Op → Client → List (Outcome (Option StatsEvent))
  | [], _ => []
  | .next::ops, c =>
    match c.nextEvent D read with
    | (.ready result,c') => result::run ops c'
    | (.dropped,c') => run ops c'
  | .reconnect r::ops, c => run ops (c.reconnect r).2

def calls (n : ℕ) (c : Client) : List (Outcome (Option StatsEvent)) :=
  run D read (List.replicate n .next) c

/-- What is left on a connection: the bytes kept and the bytes to come. -/
def readBytes : List Read → Bytes
  | [] => []
  | .chunk b bs::reader => b::bs++readBytes reader
  | _::reader => readBytes reader

def Client.bytes (c : Client) : Bytes := c.readBuffer++readBytes c.reader

end Client

end RlStatsApi.StreamClient
