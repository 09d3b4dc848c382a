import GestureActions.Detector.Device
import GestureActions.Detector.SettingText
import GestureActions.Host.PowerText
import GestureActions.Sensor.Hub
import GestureActions.Sensor.ReadingText
import GestureActions.Service.Description
import GestureActions.Service.EventText
import GestureActions.Service.Pump
import GestureActions.Settings.ConfigText
import GestureActions.Settings.ErrorText
import GestureActions.Proofs.Service.Detector
import GestureActions.Proofs.Attentive.Simple
import GestureActions.Proofs.Attentive.Merged
import GestureActions.Proofs.Observer.Holdings
import GestureActions.Proofs.System.Balance
import GestureActions.Proofs.System.Sinks
import GestureActions.Proofs.Service.Serving
import GestureActions.Proofs.Service.Registrations
import GestureActions.Proofs.Service.Redundancy
import GestureActions.Proofs.Observer.Heeding
import GestureActions.Proofs.Service.Isolation
import GestureActions.Proofs.Faults.Loss
import GestureActions.Proofs.Faults.Soundness
import GestureActions.Proofs.Faults.Trials
import GestureActions.Proofs.Faults.Assembly
import GestureActions.Proofs.Faults.Containment
import GestureActions.Proofs.Detector.Attempts
import GestureActions.Proofs.Silencer.Answers
import GestureActions.Proofs.Silencer.Ringing
import GestureActions.Proofs.Silencer.Twins
import GestureActions.Proofs.Service.Order
import GestureActions.Proofs.Attentive.Modes
import GestureActions.Proofs.Service.Dozing
import GestureActions.Proofs.Motion.Triggers
import GestureActions.Proofs.Service.Pumping
import GestureActions.Proofs.Motion.WakeLock
import GestureActions.Proofs.Sensor.Delivery
import GestureActions.Proofs.Json.Soundness
import GestureActions.Proofs.Settings.Overrides
import GestureActions.Proofs.Service.EventSpellings
import GestureActions.Proofs.Detector.Gestures
import GestureActions.Proofs.Motion.Deadlines
import GestureActions.Proofs.Number.Rounding
import GestureActions.Proofs.Sensor.Codes
import GestureActions.Proofs.Settings.RoundTrip
import GestureActions.Proofs.Observer.Duties
