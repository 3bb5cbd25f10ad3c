import VecuUds.Ecu.Attempts
import VecuUds.Uds.Suppression
import VecuUds.Uds.DtcReport
import VecuUds.Uds.WriteAccess
import VecuUds.Server.Answers
import VecuUds.Server.Authorisation
import VecuUds.Server.Capacity
import VecuUds.Server.Lockout
import VecuUds.Server.Register
import VecuUds.Server.Attendance
import VecuUds.Server.Influence
import VecuUds.Io.Sockets
import VecuUds.Queue.Refinement
import VecuUds.Queue.Linearize
import VecuUds.Queue.Settle
import VecuUds.Threads.Sequential
import VecuUds.Threads.Timeout
import VecuUds.Threads.Elapsed
import VecuUds.Threads.Sections
import VecuUds.Threads.Service
import VecuUds.Isotp.RoundTrip
import VecuUds.Isotp.Loss
import VecuUds.Isotp.Wire
import VecuUds.Isotp.Abort
import VecuUds.Isotp.Bounds
import VecuUds.Isotp.Crossing
import VecuUds.Client.WriteName
import VecuUds.Threads.Waiting
