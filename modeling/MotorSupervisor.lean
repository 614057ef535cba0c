import MotorSupervisor.Binary.Bits
import MotorSupervisor.Driver.Bench
import MotorSupervisor.Main
import MotorSupervisor.Proofs.DutyRange
import MotorSupervisor.Proofs.LimitMask
import MotorSupervisor.Proofs.SetpointTimeout
import MotorSupervisor.Proofs.StartGate
import MotorSupervisor.Proofs.ZeroSetpoint
import MotorSupervisor.Proofs.InactiveSetpoint
import MotorSupervisor.Proofs.CommandDiscipline
import MotorSupervisor.Proofs.StopOnce
import MotorSupervisor.Proofs.LastSetter
import MotorSupervisor.Proofs.HandOver
import MotorSupervisor.Proofs.Shutdown
import MotorSupervisor.Proofs.PoleAgreement
import MotorSupervisor.Proofs.Binary.Neighbour
import MotorSupervisor.Proofs.Slew
import MotorSupervisor.Proofs.SteadyRamp
import MotorSupervisor.Proofs.SpeedCap
import MotorSupervisor.Proofs.Binary.Rounded
import MotorSupervisor.Proofs.LowPass
import MotorSupervisor.Proofs.FilteredVoltage
import MotorSupervisor.Proofs.CommutationPeriod
import MotorSupervisor.Proofs.SpeedReadback
import MotorSupervisor.Proofs.BringUp
import MotorSupervisor.Proofs.LowestSpeed
import MotorSupervisor.Proofs.SpinupSpeed
import MotorSupervisor.Proofs.ProgramEnd
import MotorSupervisor.Proofs.ConfigFile
import MotorSupervisor.Proofs.MeasuredTime
import MotorSupervisor.Proofs.CycleHistory
import MotorSupervisor.Proofs.ByteOrder
import MotorSupervisor.Proofs.RegistryMap
