import AppleALC.KernAlc.OptOut
import AppleALC.KernAlc.CodecBinding
import AppleALC.KernAlc.NvidiaIds
import AppleALC.KernAlc.PatchDelivery
import AppleALC.KernAlc.PinConfigOrder
import AppleALC.KernAlc.CodecSupport
import AppleALC.KernAlc.ControllerBinding
import AppleALC.KernAlc.LayoutPriority
import AppleALC.KernAlc.WakeConfig
import AppleALC.KernAlc.NvidiaExhaustion
import AppleALC.KernAlc.BootOutcome
import AppleALC.Plugin.NullJumps
import AppleALC.Plugin.Admission
import AppleALC.AlcVerb.Arguments
import AppleALC.ResourceConverter.Delivery
import AppleALC.HdaTools.PinTable
import AppleALC.HdaTools.Codecgraph.Dump
