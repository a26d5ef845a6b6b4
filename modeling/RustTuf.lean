import RustTuf.Crypto
import RustTuf.Serde
import RustTuf.Metadata
import RustTuf.Tuf
import RustTuf.Steps
import RustTuf.Run
import RustTuf.Atomicity
import RustTuf.Commute
import RustTuf.Invariants
import RustTuf.Versions
import RustTuf.Lookup
import RustTuf.Termination
