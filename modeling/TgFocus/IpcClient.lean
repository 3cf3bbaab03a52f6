import TgFocus.IpcMsg
import TgFocus.Library.Socket

/-! The CLI's end of a connection (`ipc_client.cc`): sending a request and reading the reply. Memory for
    the payload is there. -/

namespace TgFocus

/-- The error codes of `send_ipcmsg_sync`. -/
inductive ErrCode where
  | noerr
  | ipcclientSyscallRead | ipcclientSyscallWrite
  | ipcclientMustvalidipcmsg
  deriving DecidableEq, Repr

structure IpcClient where
  ec : ErrCode
  deriving DecidableEq, Repr

namespace IpcClient

/-- What the system calls deliver, `none` for an error: what `send` counts, the first read, and the reads
    behind it; a read at the end of the stream delivers nothing. -/
structure Calls where
  sent : Option Nat
  recv : Option (Socket.Chunk IpcMsg.nbyteAll)
  reads : List (Option Bytes)
  deriving DecidableEq, Repr

/-- `waiting` is inside the loop. -/
inductive Payload where
  | waiting
  | failed
  | read (bufExtargs : Bytes)
  deriving DecidableEq, Repr

def readExtargs (nbyteExtargs : Nat) (bufExtargs : Bytes) (nreadTotal : Nat) (reads : List (Option Bytes)) :
    Payload :=
  if nreadTotal < nbyteExtargs then
    match reads with
    | [] => .waiting
    | none :: _ => .failed
    -- each read asks for the whole payload and starts at the beginning of the buffer
    | some c :: reads =>
      let c := c.take nbyteExtargs
      readExtargs nbyteExtargs (Socket.overwrite bufExtargs c) (nreadTotal + c.length) reads
  else .read bufExtargs

inductive Result where
  | waiting
  | returned (rsp : Option IpcMsg) (client : IpcClient)
  deriving DecidableEq, Repr

def sendIpcmsgSync (client : IpcClient) (calls : Calls) (msg : IpcMsg) : Result :=
  if !msg.wellFormed then .returned none { client with ec := .ipcclientMustvalidipcmsg }
  else
    match calls.sent, calls.recv with
    | none, _ => .returned none { client with ec := .ipcclientSyscallWrite }
    | some _, none => .returned none { client with ec := .ipcclientSyscallRead }
    | some _, some c =>
      let msgRsp := IpcMsg.ofBuffer (Socket.overwrite (List.replicate IpcMsg.nbyteAll 0) c.bytes)
      if msgRsp.wellFormed then
        let nbyteExtargs := (msgRsp.extargsLen.getD 0).toNat
        if nbyteExtargs > 0 then
          match readExtargs nbyteExtargs (List.replicate nbyteExtargs 0) 0 calls.reads with
          | .waiting => .waiting
          | .failed => .returned none { client with ec := .ipcclientSyscallRead }
          | .read bufExtargs => .returned (some (msgRsp.setExtargs bufExtargs)) client
        else .returned (some msgRsp) client
      else .returned none client

end IpcClient

end TgFocus
