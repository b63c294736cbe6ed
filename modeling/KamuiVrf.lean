import KamuiVrf.Node
import KamuiVrf.Program
import KamuiVrf.Cli
import KamuiVrf.Layout
import KamuiVrf.Payload
import KamuiVrf.State
import KamuiVrf.Scanner
import KamuiVrf.Pipeline
import KamuiVrf.Scheduler
import KamuiVrf.Trace
import KamuiVrf.Decoding
import KamuiVrf.Encoding
import KamuiVrf.Submission
import KamuiVrf.Dedup
import KamuiVrf.Counters
import KamuiVrf.Faults
import KamuiVrf.Ui
import KamuiVrf.Shutdown
import KamuiVrf.Locality
import KamuiVrf.Reorder
import KamuiVrf.Commands
import KamuiVrf.Outbound
import KamuiVrf.Codec
import KamuiVrf.Serialize
import KamuiVrf.Demo
import KamuiVrf.Harness
