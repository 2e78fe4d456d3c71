import PhosphorBlobs.Process
import PhosphorBlobs.Utils

/-! The daemon, from main.cpp. A constructor registers one function for the blob transfer
command and loads the handlers; from then on ipmid calls the function for every request. -/
namespace PhosphorBlobs

variable {H : Type} {m : Type → Type} [Monad m]

/-- The registered function. The limit on the reply is that of the channel of the request. -/
def blobTransfer (generateCrc : List UInt8 → UInt16) (getChannelMaxTransferSize : UInt8 → Nat)
    (mgr : ManagerInterface H m) (channel cmd : UInt8) (data : List UInt8) : ExceptT Fault m Resp :=
  handleBlobCommand generateCrc cmd mgr data (getChannelMaxTransferSize channel)

/-- The directory is none where its iteration throws: this leaves getLibraryList before a
library is opened, and is caught here. -/
def setupBlobGlobalHandler {L F : Type} [DecidableEq F] (manager : ManagerInterface H m)
    (sys : DlSysInterface L F m) (make : F → m (Made H)) (directory : Option (List Path)) :
    ExceptT Crash m Unit :=
  match directory with
  | none => return ()
  | some entries => loadLibraries manager sys make entries

end PhosphorBlobs
