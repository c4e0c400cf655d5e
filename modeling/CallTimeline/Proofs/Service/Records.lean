import CallTimeline.Proofs.Source.Records
import CallTimeline.Service.Api

namespace CallTimeline.Service

open Source Json

def RecordFault (fault : Fault) : Prop :=
  isRecordFault fault = true ∨ fault = .infinityAsInteger

theorem recordFault_of_trouble {endless : Prop} {fault : Fault} (trouble : Trouble endless fault) :
    RecordFault fault := by
  cases trouble with
  | misfit kind => exact .inl (by cases fault <;> first | rfl | cases kind)
  | misshapen kind => exact .inl (by cases fault <;> first | rfl | cases kind)
  | infinite => exact .inr rfl

theorem faultsIn_ofFields (records : Fields) :
    FaultsIn RecordFault (Locations.ofFields records) :=
  (Source.faultsIn_ofFields records).mono fun _ => recordFault_of_trouble

end CallTimeline.Service
