import StyleVars.Proofs.Browser.Keys
import StyleVars.Proofs.CommandLine.ExitCode

namespace StyleVars

open Browser (Progress)

namespace CommandLine

variable {env : Environment} {target : Target}

namespace Program

end Program

end CommandLine

end StyleVars
