import Cue.Config
import Cue.Runtime.State
import Cue.Runtime.Worker
import Cue.Runtime.Step
import Cue.Runtime.Frame
import Cue.Runtime.Kinds
import Cue.Degradation
import Cue.Runtime.Mutex
import Cue.Runtime.Collect
import Cue.Runtime.Footprint
import Cue.Runtime.Lifecycle
import Cue.Runtime.Lock
import Cue.Deadlock
import Cue.Runtime.Retire
import Cue.Runtime.Ending
import Cue.Runtime.Stop
import Cue.Runtime.Finish
import Cue.Termination
import Cue.Drops
import Cue.Dispose
import Cue.Backoff
import Cue.Format.Runes
import Cue.Context
import Cue.Format.Formatter
import Cue.Format.Formatf
import Cue.Format.Structured
import Cue.Collectors
import Cue.Retries
import Cue.Runtime.Carries
import Cue.Collectors.Syslog
import Cue.BasicValue
import Cue.Collectors.Pipeline
import Cue.StackFrame
import Cue.Runtime.Queue
import Cue.Runtime.Flush
import Cue.Runtime.Sends
import Cue.Close
import Cue.Format.Buffer
import Cue.Runtime.Safety
import Cue.Collectors.Handles
