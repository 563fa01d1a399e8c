import Bussard.Download.ComputeRoundTrip
import Bussard.Download.Flash
import Bussard.Download.FlashAllocations
import Bussard.Download.FlashBases
import Bussard.Download.FlashExecute
import Bussard.Download.FlashLowering
import Bussard.Download.FlashParameters
import Bussard.Download.FlashPartial
import Bussard.Download.FlashPartialMemory
import Bussard.Download.FlashRestore
import Bussard.Download.KeyForms
import Bussard.Download.LoadOp
import Bussard.Download.NoopVerdict
import Bussard.Download.ObjectChanges
import Bussard.Download.Plan
import Bussard.Download.SecureSenders
import Bussard.Download.SecureSendersStable
import Bussard.Download.Security
import Bussard.Download.SecurityAgreement
import Bussard.Download.Shadow
import Bussard.Download.SparseWrite
import Bussard.Download.SplitLinks
import Bussard.Download.StateHash
import Bussard.Download.Sys7Coverage
import Bussard.Download.Sys7Flash
import Bussard.Download.Sys7Parts
import Bussard.Download.Sys7Plan
import Bussard.Download.Sys7PlanSteps
import Bussard.Download.Sys7Ranges
import Bussard.Download.Sys7Restore
import Bussard.Download.Sys7Stream
import Bussard.Download.Sys7Tables
import Bussard.Download.Sys7TablesImages
import Bussard.Download.Sys7TablesRead
import Bussard.Download.Sys7TablesRoundTrip
import Bussard.Download.WriteImage
import Bussard.Download.WriteImageMemory
import Bussard.Download.WriteImageResume
import Bussard.Lib.BitField
import Bussard.Lib.BitStream
import Bussard.Lib.CyclicCheck
import Bussard.Lib.Decimal
import Bussard.Lib.Exclusive
import Bussard.Lib.FixedPoint
import Bussard.Lib.Incremental
import Bussard.Lib.KeyedMerge
import Bussard.Lib.Overlay
import Bussard.Lib.SharedFile
import Bussard.Lib.SlidingWindow
import Bussard.Lib.Stateful
import Bussard.Lib.StopAndWait
import Bussard.Lib.Text
import Bussard.Lib.TextParts
import Bussard.Lib.Tiling
import Bussard.Lib.TomlText
import Bussard.Mcp.Jobs
import Bussard.Mgmt.Connection
import Bussard.Mgmt.ConnectionExactlyOnce
import Bussard.Mgmt.ConnectionInvariant
import Bussard.Mgmt.ConnectionPeer
import Bussard.Mgmt.Crc
import Bussard.Mgmt.CrcPolynomial
import Bussard.Mgmt.McbTable
import Bussard.Mgmt.Memory
import Bussard.Mgmt.MemoryAnswer
import Bussard.Mgmt.MemoryRange
import Bussard.Mgmt.MemorySpace
import Bussard.Mgmt.MemoryWrite
import Bussard.Mgmt.Property
import Bussard.Mgmt.PropertyExt
import Bussard.Mgmt.PropertyExtTable
import Bussard.Mgmt.TableRead
import Bussard.Mgmt.TableReadAgreement
import Bussard.Mgmt.TableReadLimit
import Bussard.Model.Codec
import Bussard.Model.CodecFields
import Bussard.Model.CodecRoundTrip
import Bussard.Model.ColorCodec
import Bussard.Model.Dynamic
import Bussard.Model.DynamicEval
import Bussard.Model.DynamicOrder
import Bussard.Model.DynamicReach
import Bussard.Model.DynamicReachWalk
import Bussard.Model.DynamicSettle
import Bussard.Model.EmitAddress
import Bussard.Model.EmitGroups
import Bussard.Model.FixedDecimal
import Bussard.Model.Merge
import Bussard.Model.MergeWiring
import Bussard.Model.ModuleKeyText
import Bussard.Model.ModuleKeys
import Bussard.Model.ModuleVisits
import Bussard.Model.ScaledText
import Bussard.Model.Selector
import Bussard.Model.SelectorKeys
import Bussard.Model.TextCodec
import Bussard.Model.Undo
import Bussard.Prod.DecodeValue
import Bussard.Prod.EncodeShape
import Bussard.Prod.EncodeValue
import Bussard.Prod.Image
import Bussard.Prod.ImageBuilder
import Bussard.Prod.ImageContent
import Bussard.Prod.ParameterType
import Bussard.Prod.Placement
import Bussard.Prod.PlacementBits
import Bussard.Prod.ReadBack
import Bussard.Script.Ecma
import Bussard.Script.Effects
import Bussard.Script.Footprint
import Bussard.Script.Frame
import Bussard.Script.FrameEval
import Bussard.Script.Grammar
import Bussard.Script.Height
import Bussard.Script.Interp
import Bussard.Script.JsParser
import Bussard.Script.JsPrint
import Bussard.Script.JsReads
import Bussard.Script.JsRoundTrip
import Bussard.Script.JsText
import Bussard.Script.Order
import Bussard.Script.OrderRun
import Bussard.Script.Reorder
import Bussard.Script.Syntax
import Bussard.Script.Unbounded
import Bussard.Script.Value
import Bussard.Script.VbParser
import Bussard.Script.VbPrint
import Bussard.Script.VbRoundTrip
import Bussard.Script.VbText
import Bussard.Secure.Certificate
import Bussard.Secure.CertificateBits
import Bussard.Secure.CertificateCodec
import Bussard.Secure.IpSecureSession
import Bussard.Secure.Keystream
import Bussard.Secure.SequenceCeiling
import Bussard.Secure.SessionSend
import Bussard.Secure.SyncHandshake
import Bussard.Service.Admission
import Bussard.Service.EnrollSession
import Bussard.Service.KeyStore
import Bussard.Service.KeyStoreFile
import Bussard.Service.Write
import Bussard.Service.WriteDelivery
import Bussard.Transport.CemiRoundTrip
import Bussard.Transport.Channel
import Bussard.Transport.FrameReader
import Bussard.Transport.Knxnet
import Bussard.Transport.Router
import Bussard.Transport.SecureLink
import Bussard.Transport.Tunnel
import Bussard.Transport.TunnelDelivery
import Bussard.Transport.TunnelSend
import Bussard.Transport.TunnelStale
import Bussard.Transport.TunnelSteps
