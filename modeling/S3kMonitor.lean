import S3kMonitor.Machine
import S3kMonitor.Lib.Chaining
import S3kMonitor.Lib.LittleEndian
import S3kMonitor.Aes128
import S3kMonitor.Aes128Inverse
import S3kMonitor.CbcMac
import S3kMonitor.CodeAuth
import S3kMonitor.Napot
import S3kMonitor.S3k
import S3kMonitor.Capman
import S3kMonitor.CapmanCalls
import S3kMonitor.Mirror
import S3kMonitor.Loop
import S3kMonitor.ExecutableRights
import S3kMonitor.Lib.Holdings
import S3kMonitor.WriteXorExecute
import S3kMonitor.Header
import S3kMonitor.Lib.HexText
import S3kMonitor.AppFormat
import S3kMonitor.Setup
import S3kMonitor.SetupCalls
import S3kMonitor.Authentication
import S3kMonitor.FormattedImages
import S3kMonitor.Handout
import S3kMonitor.Delivery
import S3kMonitor.HeaderGrants
import S3kMonitor.Confinement
import S3kMonitor.SetupRights
import S3kMonitor.StaticRights
import S3kMonitor.Ipc
import S3kMonitor.HeapChunks
import S3kMonitor.SectionNames
import S3kMonitor.TextbookMac
import S3kMonitor.Refusals
import S3kMonitor.CodeReads
import S3kMonitor.ImageReads
import S3kMonitor.Altmem
import S3kMonitor.Allocations
import S3kMonitor.Trap
import S3kMonitor.StackChunks
import S3kMonitor.FullRights
import S3kMonitor.Turns
import S3kMonitor.HeapTiling
import S3kMonitor.TrapRequests
import S3kMonitor.ExistingPmp
import S3kMonitor.StoreFaults
import S3kMonitor.Resync
import S3kMonitor.DerivedMemory
import S3kMonitor.Lib.TrailingOnes
import S3kMonitor.NapotEncoding
import S3kMonitor.PmpRegister
import S3kMonitor.Lib.Fips197
import S3kMonitor.Aes128Standard
import S3kMonitor.CbcCipher
import S3kMonitor.Altio
import S3kMonitor.FormatStrings
import S3kMonitor.CodeIntegrity
import S3kMonitor.BootIntegrity
import S3kMonitor.GrantedRequests
import S3kMonitor.FaultService
import S3kMonitor.CommonAsm
import S3kMonitor.SignedPayloads
import S3kMonitor.BuiltApps
import S3kMonitor.Lib.Rv64Protection
import S3kMonitor.ProtectedCopy
import S3kMonitor.SecurityOff
import S3kMonitor.MonitorSlots
import S3kMonitor.AppStart
import S3kMonitor.AtomicService
import S3kMonitor.ServiceRuns
import S3kMonitor.StartAsm
