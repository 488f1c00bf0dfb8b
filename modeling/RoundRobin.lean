import RoundRobin.Board.Script
import RoundRobin.Board.Session
import RoundRobin.Host.Drill
import RoundRobin.Host.Section
import RoundRobin.Pool.Session
import RoundRobin.Proofs.Board.Preemption
import RoundRobin.Proofs.Host.BusyWait
import RoundRobin.Proofs.Host.Charges
import RoundRobin.Proofs.Host.Creation
import RoundRobin.Proofs.Host.Deferral
import RoundRobin.Proofs.Host.IdleAside
import RoundRobin.Proofs.Host.Indifference
import RoundRobin.Proofs.Host.Masking
import RoundRobin.Proofs.Host.SleepRequest
import RoundRobin.Proofs.Host.SleepUnits
import RoundRobin.Proofs.Host.Slices
import RoundRobin.Proofs.Host.Stacks
import RoundRobin.Proofs.Host.Tampering
import RoundRobin.Proofs.Host.Waking
import RoundRobin.Proofs.Pool.Allocator
import RoundRobin.Proofs.Queue.Membership
import RoundRobin.Proofs.Queue.StableOrder
import RoundRobin.Proofs.Thread.Name
import RoundRobin.Proofs.Tick.ConstantSpeed
import RoundRobin.Proofs.Tick.Divisor
import RoundRobin.Queue.Session
import RoundRobin.Tick.Trial
