import NvrxFirmware.Runs
import NvrxFirmware.CadencePlayback
import NvrxFirmware.CadenceMarks
import NvrxFirmware.CadenceStatus
import NvrxFirmware.ModuleResources
import NvrxFirmware.GpioIoctl
import NvrxFirmware.WatchdogFeeding
import NvrxFirmware.TestAppAdvertising
import NvrxFirmware.TestAppSessions
import NvrxFirmware.TestAppValues
import NvrxFirmware.TestAppOwnership
import NvrxFirmware.BTClientDisorder
import NvrxFirmware.AutomacGrants
import NvrxFirmware.AutomacTimeouts
import NvrxFirmware.AutomacReceivedBytes
import NvrxFirmware.AutomacTransmit
import NvrxFirmware.AutomacPersists
import NvrxFirmware.UsbUpgradeSignature
import NvrxFirmware.PasswordUpdateSeeds
import NvrxFirmware.PppdSecrets
import NvrxFirmware.PppdSecretLength
import NvrxFirmware.BTClientCrc
import NvrxFirmware.ElapsedTicks
import NvrxFirmware.HexToBinary
import NvrxFirmware.WpaSupplicantPassword
import NvrxFirmware.LinuxGatMatWrites
import NvrxFirmware.MxGpioCtlCommands
import NvrxFirmware.ResourceImgModel
import NvrxFirmware.ResourceImgEntries
import NvrxFirmware.NetReceived
import NvrxFirmware.AutomacFrames
import NvrxFirmware.CadenceSettling
import NvrxFirmware.BTClientPunch
import NvrxFirmware.ResourceImgRam
import NvrxFirmware.GpioDriver
import NvrxFirmware.GpioResets
import NvrxFirmware.BluetoothLink
import NvrxFirmware.RtcTimes
import NvrxFirmware.UsbStatuses
import NvrxFirmware.UsbCommands
import NvrxFirmware.OtpwNormalForms
import NvrxFirmware.OtpwListing
