import PulseDaq.Text.Quoted

/-!
# Board functions

Every value that can be read from or written to a board has a name. Some are read only; some are
global, some belong to a group, channel or register and need its index, and some take both forms,
the global one addressing every group at once.

* `FunctionId.check`: whether a function can be read or written with an index.
* `FunctionId.ofName?`: the function of a name.
-/

namespace PulseDaq

/-- Whether a function can be written. -/
inductive Access where
  | readWrite
  | readOnly
  deriving DecidableEq, Repr

/-- The name of a way of access. -/
def Access.name : Access → String
  | readWrite => "ReadWrite"
  | readOnly => "ReadOnly"

/-- Whether a function takes an index. -/
inductive Indexing where
  | global
  | indexed
  | either
  deriving DecidableEq, Repr

/-- The name of a way of indexing. -/
def Indexing.name : Indexing → String
  | global => "Global"
  | indexed => "Indexed"
  | either => "Either"

/-- The values of a board. -/
inductive FunctionId where
  | maxNumEventsBLT
  | channelEnableMask
  | groupEnableMask
  | decimationFactor
  | postTriggerSize
  | acquisitionMode
  | externalTriggerMode
  | swTriggerMode
  | runSynchronizationMode
  | dppAcquisitionMode
  | dppTriggerMode
  | maxNumAggregatesBLT
  | boardConfiguration
  | dppAggregateOrganization
  | acquisitionControl
  | acquisitionStatus
  | globalTriggerMask
  | frontPanelIOControl
  | rocFPGAFirmwareRevision
  | eventSize
  | runStartStopDelay
  | readoutControl
  | readoutStatus
  | scratch
  | dppAggregateNumberPerBLT
  | register
  | amcFirmwareRevision
  | groupDCOffset
  | groupSelfTrigger
  | groupTriggerThreshold
  | channelTriggerThreshold
  | channelPulsePolarity
  | dppPreTriggerSize
  | recordLength
  | numEventsPerAggregate
  | dppGateWidth
  | dppGateOffset
  | dppFixedBaseline
  | dppAlgorithmControl
  | dppTriggerHoldOffWidth
  | dppShapedTriggerWidth
  deriving DecidableEq, Repr, Inhabited

namespace FunctionId

/-- Every function, in the order of the table. -/
def all : List FunctionId :=
  [.maxNumEventsBLT, .channelEnableMask, .groupEnableMask, .decimationFactor, .postTriggerSize,
  .acquisitionMode, .externalTriggerMode, .swTriggerMode, .runSynchronizationMode,
  .dppAcquisitionMode, .dppTriggerMode, .maxNumAggregatesBLT, .boardConfiguration,
  .dppAggregateOrganization, .acquisitionControl, .acquisitionStatus, .globalTriggerMask,
  .frontPanelIOControl, .rocFPGAFirmwareRevision, .eventSize, .runStartStopDelay,
  .readoutControl, .readoutStatus, .scratch, .dppAggregateNumberPerBLT, .register,
  .amcFirmwareRevision, .groupDCOffset, .groupSelfTrigger, .groupTriggerThreshold,
  .channelTriggerThreshold, .channelPulsePolarity, .dppPreTriggerSize, .recordLength,
  .numEventsPerAggregate, .dppGateWidth, .dppGateOffset, .dppFixedBaseline, .dppAlgorithmControl,
  .dppTriggerHoldOffWidth, .dppShapedTriggerWidth]

/-- The name of a function. -/
def name : FunctionId → String
  | maxNumEventsBLT => "MaxNumEventsBLT"
  | channelEnableMask => "ChannelEnableMask"
  | groupEnableMask => "GroupEnableMask"
  | decimationFactor => "DecimationFactor"
  | postTriggerSize => "PostTriggerSize"
  | acquisitionMode => "AcquisitionMode"
  | externalTriggerMode => "ExternalTriggerMode"
  | swTriggerMode => "SWTriggerMode"
  | runSynchronizationMode => "RunSynchronizationMode"
  | dppAcquisitionMode => "DPPAcquisitionMode"
  | dppTriggerMode => "DPPTriggerMode"
  | maxNumAggregatesBLT => "MaxNumAggregatesBLT"
  | boardConfiguration => "BoardConfiguration"
  | dppAggregateOrganization => "DPPAggregateOrganization"
  | acquisitionControl => "AcquisitionControl"
  | acquisitionStatus => "AcquisitionStatus"
  | globalTriggerMask => "GlobalTriggerMask"
  | frontPanelIOControl => "FrontPanelIOControl"
  | rocFPGAFirmwareRevision => "ROCFPGAFirmwareRevision"
  | eventSize => "EventSize"
  | runStartStopDelay => "RunStartStopDelay"
  | readoutControl => "ReadoutControl"
  | readoutStatus => "ReadoutStatus"
  | scratch => "Scratch"
  | dppAggregateNumberPerBLT => "DPPAggregateNumberPerBLT"
  | register => "Register"
  | amcFirmwareRevision => "AMCFirmwareRevision"
  | groupDCOffset => "GroupDCOffset"
  | groupSelfTrigger => "GroupSelfTrigger"
  | groupTriggerThreshold => "GroupTriggerThreshold"
  | channelTriggerThreshold => "ChannelTriggerThreshold"
  | channelPulsePolarity => "ChannelPulsePolarity"
  | dppPreTriggerSize => "DPPPreTriggerSize"
  | recordLength => "RecordLength"
  | numEventsPerAggregate => "NumEventsPerAggregate"
  | dppGateWidth => "DPPGateWidth"
  | dppGateOffset => "DPPGateOffset"
  | dppFixedBaseline => "DPPFixedBaseline"
  | dppAlgorithmControl => "DPPAlgorithmControl"
  | dppTriggerHoldOffWidth => "DPPTriggerHoldOffWidth"
  | dppShapedTriggerWidth => "DPPShapedTriggerWidth"

/-- Whether the function can be written. -/
def access : FunctionId → Access
  | .acquisitionStatus | .rocFPGAFirmwareRevision | .eventSize | .readoutStatus
  | .amcFirmwareRevision => .readOnly
  | _ => .readWrite

/-- Whether the function takes an index. -/
def indexing : FunctionId → Indexing
  | .register | .amcFirmwareRevision | .groupDCOffset | .groupSelfTrigger
  | .groupTriggerThreshold | .channelTriggerThreshold | .channelPulsePolarity
  | .dppPreTriggerSize | .dppGateWidth | .dppGateOffset | .dppFixedBaseline
  | .dppAlgorithmControl => .indexed
  | .recordLength | .numEventsPerAggregate | .dppTriggerHoldOffWidth
  | .dppShapedTriggerWidth => .either
  | _ => .global

/-- The function of a name. -/
def ofName? (name : String) : Option FunctionId :=
  all.find? fun f => f.name = name

end FunctionId

end PulseDaq
