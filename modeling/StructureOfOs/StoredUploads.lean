import StructureOfOs.FailedUploads
import StructureOfOs.FileCalls
import StructureOfOs.RequestLoop
import StructureOfOs.WriteOnce

/-!
The server as a store that is written once. Whatever arrives and whatever fails, at the
head of every round the files are those that were there when the server started, and one
for each completed upload, under names that were new. Uploads are served one after the
other, and nothing that has been stored is ever touched again.
-/
namespace StructureOfOs.StoredUploads
open StructureOfOs.Loops StructureOfOs.Frames StructureOfOs.WriteOnce
open StructureOfOs.Server StructureOfOs.ServerPasses StructureOfOs.Blocks StructureOfOs.Ttftps StructureOfOs.UploadIntegrity
open StructureOfOs.FailedUploads (zeros)
open StructureOfOs.FileCalls StructureOfOs.RequestLoop

/-- A completed upload: the name it is stored under, the request, and the client's blocks 1, 2, ..
    of which only the last is short. -/
structure Upload where
  file_name : Name
  request : Datagram
  blocks : List Datagram
  last : Datagram
  asked : opcode (overlay request cleared) = WRQ_OPCODE
  full : FullBlocks request.sender blocks
  final : IsBlock request.sender (blocks.length + 1) last
  short : PACKET_SIZE - DATA_SIZE ≤ (message last).length ∧ (message last).length < PACKET_SIZE

def Upload.content (u : Upload) : Bytes := (u.blocks ++ [u.last]).flatMap payload
def Upload.entry (u : Upload) : Name × Bytes := (u.file_name,u.content)
/-- What the server has received for it, in this order. -/
def Upload.datagrams (u : Upload) : List Datagram := u.request :: (u.blocks ++ [u.last])

variable {client_addr : Addr} {file_name : Name} {max_num_of_resends : UInt16} {memory : Nat → Memory}
variable {w w' w'' : World} {uploads : List Upload} {calls : List FileCall} {m m' : Main} {d : Datagram}

/-! ### Calls under one name -/

/-- The requests of the rounds that have ended with a completed upload. -/
def completed (rounds : List Round) : List Datagram :=
  (rounds.filter (·.answer = .uploaded .complete)).map Round.request

end StructureOfOs.StoredUploads
