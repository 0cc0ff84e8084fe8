import Khefin.CStandardLibrary
import Khefin.CborItems
import Khefin.ExitingPrograms
import Khefin.Platform
import Khefin.World
import Khefin.Files
import Khefin.Invocation
import Khefin.CommandLines
import Khefin.OptionScanning
import Khefin.CborRoundTrip
import Khefin.Cryptography
import Khefin.SerializationV1
import Khefin.ReferencePlatform
import Khefin.DocumentedCommandLines
import Khefin.Authenticator
import Khefin.Serialization
import Khefin.CleartextCodec
import Khefin.Enrol
import Khefin.EnrolmentRuns
import Khefin.Generate
import Khefin.SecretsCodec
import Khefin.OpeningRuns
import Khefin.KeyfileAgreement
import Khefin.Enumerate
import Khefin.Help
import Khefin.DeviceTurns
import Khefin.SearchRuns
import Khefin.Main
import Khefin.KeyfileStorage
import Khefin.FitInvocations
import Khefin.PassphraseChannels
import Khefin.AcceptedCommandLines
import Khefin.Histories
import Khefin.KeyfileTampering
import Khefin.AssertionRequests
import Khefin.FirstVerdict
import Khefin.DeviceSearch
import Khefin.ReachedDevices
import Khefin.DeviceListings
import Khefin.ExitStatuses
import Khefin.GenerationSoundness
import Khefin.ProperStops
import Khefin.CleartextGrammar
import Khefin.Mixins
import Khefin.Simulations
import Khefin.Registers
import Khefin.KeyfileVault
import Khefin.Launches
import Khefin.GenerationOutcomes
import Khefin.StartReports
import Khefin.VaultRuns
import Khefin.VaultHistories
import Khefin.CommandLineMeanings
import Khefin.PosixRegex
import Khefin.ShellWords
import Khefin.SshAskpass
import Khefin.PromptResolution
import Khefin.AskpassKeys
import Khefin.AutomaticHardness
import Khefin.EarlyLoops
import Khefin.BootHook
import Khefin.RetrySchedule
import Khefin.KeyfileTurns
import Khefin.KeyfileRuns
import Khefin.BootStarts
import Khefin.CleanExits
import Khefin.BootUnlocking
import Khefin.BootCleanups
import Khefin.BootPassphrases
import Khefin.BufferAccesses
import Khefin.CborPrefixes
import Khefin.LineStreams
import Khefin.ShellPipelines
import Khefin.DeviceCompletions
import Khefin.HandleTraces
import Khefin.DeviceHandles
import Khefin.DeviceObfuscation
import Khefin.ErrexitScripts
import Khefin.InitcpioImages
import Khefin.LuksKeys
import Khefin.InitramfsKeys
import Khefin.KeyfileSecrecy
import Khefin.MalformedKeyfiles
import Khefin.MemoryTraces
import Khefin.OverlappingStarts
import Khefin.ParameterBuffers
import Khefin.ParameterBounds
import Khefin.PinChannels
import Khefin.PromptSequences
import Khefin.RecordingPrograms
import Khefin.SecretBuffers
import Khefin.SecretsGrammar
import Khefin.UnwipedBuffers
