import StructureOfOs.Buffered
import StructureOfOs.StoredUploads

/-!
The server cut off anywhere. The calls it has made say what its directory may hold: a file
that is open holds its bytes up to some point, a file that has been closed holds them all
(`disk`). Wherever the calls are cut off, there are the files of the start, all
uploads that have been closed, and at most a part of the upload then under way.
-/
namespace StructureOfOs.CutOff
open StructureOfOs.Loops StructureOfOs.Frames StructureOfOs.WriteOnce StructureOfOs.Buffered
open StructureOfOs.Server StructureOfOs.ServerPasses StructureOfOs.Blocks StructureOfOs.Ttftps StructureOfOs.UploadIntegrity
open StructureOfOs.FailedUploads (fopen_cases fclose_cases)
open StructureOfOs.FileCalls StructureOfOs.RequestLoop StructureOfOs.StoredUploads
open StructureOfOs.ServerArguments (settings)

/-- What a call does to the disk. -/
def after (D : Disk Name UInt8) : FileCall → Disk Name UInt8
  | .exists_ _ => D
  | .fopen name => D.opened name
  | .fwrite name bytes => D.written name bytes
  | .fwrite_failed name bytes => D.written name bytes
  | .fclose name => D.closed name
  | .remove name => D.removed name
def disk (files : Name → Option Bytes) (calls : List FileCall) : Disk Name UInt8 := calls.foldl after (.still files)

/-- Blocks 1, 2, .. of the client; all but the last are full. -/
def InOrder (client_addr : Addr) (blocks : List Datagram) : Prop :=
  FullBlocks client_addr blocks ∨
    ∃ full last, blocks = full ++ [last] ∧ FullBlocks client_addr full ∧ IsBlock client_addr (full.length + 1) last
/-- An upload under way, as far as it has come. -/
structure Begun where
  file_name : Name
  request : Datagram
  blocks : List Datagram
  asked : opcode (overlay request cleared) = WRQ_OPCODE
  in_order : InOrder request.sender blocks

def Begun.content (u : Begun) : Bytes := u.blocks.flatMap payload
def Begun.datagrams (u : Begun) : List Datagram := u.request :: u.blocks

/-- The files of a world to which uploads have been added, and it may be a part of one more. -/
inductive Intact (w : World) (uploads : List Upload) (files : Name → Option Bytes) : Prop
  | whole (served : (uploads.flatMap Upload.datagrams).Sublist (datagrams w.events))
      (same : files = puts w.files (uploads.map Upload.entry)) : Intact w uploads files
  | part (u : Begun) {held : Bytes} (absent : puts w.files (uploads.map Upload.entry) u.file_name = none)
      (served : (uploads.flatMap Upload.datagrams ++ u.datagrams).Sublist (datagrams w.events))
      (before : held <+: u.content) (same : files = put (puts w.files (uploads.map Upload.entry)) (u.file_name,held)) :
    Intact w uploads files

/-- Uploads have been added to the files of a world and closed, and no other file has been touched,
    but that a part of the upload under way may be there. -/
def Spared (w : World) (D : Disk Name UInt8) : Prop :=
  ∃ uploads : List Upload, Fresh w.files (uploads.map Upload.entry) ∧
    D.settled = puts w.files (uploads.map Upload.entry) ∧ ∀ files, D.Holds files → Intact w uploads files

/-- What a cut within a round finds on the disk. -/
inductive Stage (F : Name → Option Bytes) (d : Datagram) (coming : List Datagram) : Disk Name UInt8 → Prop
  | before : Stage F d coming (.still F)
  | under_way (u : Begun) (request : u.request = d) (absent : F u.file_name = none) (came : u.blocks.Sublist coming) :
    Stage F d coming (.writing F u.file_name u.content)
  | stored (u : Upload) (request : u.request = d) (absent : F u.file_name = none)
      (came : (u.blocks ++ [u.last]).Sublist coming) : Stage F d coming (.still (put F u.entry))

variable {client_addr : Addr} {file_name : Name} {memory : Memory} {wrq : WRQ} {F : Name → Option Bytes}
variable {w w' w'' v : World} {blocks done : List Datagram} {d last : Datagram} {calls : List FileCall} {coming : List Datagram}

/-! ### Sessions -/

/-- The call that hands a block over. -/
def write (file_name : Name) (d : Datagram) : FileCall := .fwrite file_name (payload d)
section
variable {max_num_of_resends : UInt16} (asked : opcode (overlay d cleared) = WRQ_OPCODE) (absent : F file_name = none)
include asked absent

end

/-- The calls go through the stages of a round, and no file is open when it ends normally. -/
def Staged {α : Type} (d : Datagram) (w : World) (r : EStateM.Result Stop World α) : Prop :=
  ∃ calls, (final r).disk = w.disk ++ calls ∧ Always after (Stage w.files d (datagrams w.events)) (.still w.files) calls ∧
    ∀ value w', r = .ok value w' → calls.foldl after (.still w.files) = .still w'.files

theorem Staged.with {α β : Type} {program : Process α} {f : α → β} (staged : Staged d w (program w)) :
    Staged d w ((do let value ← program; return f value : Process β) w) := by
  cases ran : program w with
  | ok value w' =>
    rw [bind_ok ran]
    obtain ⟨calls,disk,always,last⟩ := staged
    rw [ran] at disk
    refine ⟨calls,disk,always,?_⟩
    rintro _ _ ⟨⟩
    exact last _ _ ran
  | error stop w' =>
    rw [bind_error ran]
    obtain ⟨calls,disk,always,last⟩ := staged
    rw [ran] at disk
    exact ⟨calls,disk,always,by simp⟩

section
variable {max_num_of_resends : UInt16} {memory : Nat → Memory} {uploads : List Upload} {m m' : Main} {events : List Event}

/-- The same, and in the end no file is open. -/
def Closed (w w' : World) : Prop :=
  ∃ calls, w'.disk = w.disk ++ calls ∧ Always after (Spared w) (.still w.files) calls ∧ disk w.files calls = .still w'.files

end

end StructureOfOs.CutOff
