import ClassVeil.Config.Reader
import ClassVeil.Css.Transform
import ClassVeil.Markup.Transform
import ClassVeil.Script.Transform
import ClassVeil.Store.Flusher
import ClassVeil.Proofs.Css.Outcome
import ClassVeil.Proofs.Markup.RawText
import ClassVeil.Proofs.Markup.Rescan
import ClassVeil.Proofs.Path.Canonical
import ClassVeil.Proofs.Shared.Moments
import ClassVeil.Proofs.Store.Reproducible
import ClassVeil.Proofs.Id.Seed
import ClassVeil.Proofs.Renaming.Crew
import ClassVeil.Proofs.Script.Spelling
import ClassVeil.Proofs.Store.Resolved
import ClassVeil.Proofs.Store.AllOrNothing
import ClassVeil.Proofs.Css.Escaped
import ClassVeil.Proofs.Css.Twice
import ClassVeil.Proofs.Script.Kept
import ClassVeil.Proofs.Shared.Wakeup
