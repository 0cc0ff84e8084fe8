import Khefin.Generate

/-! # Listing the connected devices -/

namespace Khefin
open CLibrary ExitingPrograms

/-- The AAGUID in hexadecimal, with the separators of a GUID. -/
def deviceAaguidText (aaguid : Bytes) : Bytes :=
  aaguid.zipIdx.flatMap fun (b, i) =>
    [hexDigit (b / 16), hexDigit (b % 16)] ++
      if i = 3 ∨ i = 5 ∨ i = 7 ∨ i = 9 then (literal "-").bytes else []

/-- The line of a device: whether it can be enrolled, its path, its name and its AAGUID. -/
def deviceLine (authenticator : Authenticator) (ctapInfo : CborInfo) : Bytes :=
  let deviceSupported := authenticator.fidoDevIsFido2 && deviceSupportsHmacSecret ctapInfo
  (literal (if deviceSupported then " " else "!")).bytes ++ (literal "\t").bytes ++
    authenticator.path.bytes ++ (literal "\t").bytes ++ authenticator.manufacturerString.bytes ++
    (literal " ").bytes ++ authenticator.productString.bytes ++ (literal "\t").bytes ++
    deviceAaguidText ctapInfo.aaguid ++ [newline]

/-- One turn of the loop; devices that are not FIDO2 are listed as well. -/
def printDevice (device : FidoDev) : Program Unit := do
  getDeviceEvenIfNotFido2 device
  let ctapInfo ← getDeviceInfo device
  modify (World.printf (deviceLine device.authenticator ctapInfo))
  closeAndFreeDeviceIgnoringErrors device

def printDevices : ℕ → List Authenticator → Program Unit
  | _, [] => return ()
  | slot, authenticator :: devices => do
    printDevice ⟨slot, authenticator⟩
    printDevices (slot + 1) devices

def printDevicesList (devicesList : List Authenticator) : Program Unit := do
  printDevices 0 devicesList
  lift (stopIf (devicesList = []) (.exit .noDevices ⟨"No devices found", []⟩))

end Khefin
