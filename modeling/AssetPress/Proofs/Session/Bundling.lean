import AssetPress.Proofs.Script.Joining
import AssetPress.Proofs.Session.Inputs

/-!
# Bundles of scripts

What a compression of scripts writes behind the banner.  Each script is put on lines of its own and
keeps the short text that it has by itself, unless it goes on with an expression that the scripts
before it leave open.  Main statement: `pressScripts_of_apart`.
-/

namespace AssetPress
namespace Session

variable {base : Location} {s : Session}

theorem prepared_of_apart {ps : List Path} {texts codes : List String} (output : String)
    (hread : ps.mapM (s.tree.readText base) = .ok texts)
    (hcodes : texts.mapM Script.minify = .ok codes) (hapart : Script.areApart texts = true) :
    s.tree.prepared base (Minifier.standard.shrink .script output) ps = .ok (texts,
      Script.joinCodes ((codes.zip (texts.map Script.endsClosed)).filter (·.1 ≠ ""))) := by
  have htexts : (ps.mapM fun p => (s.tree.readText base p).mapError (CompressError.readSource p)) =
      .ok texts := by
    refine mapM_eq_ok_of_refines (fun p text htext => ?_) hread
    rw [htext]
    rfl
  have hcode : Minifier.standard.shrink .script output texts =
      .ok (Script.joinCodes ((codes.zip (texts.map Script.endsClosed)).filter (·.1 ≠ ""))) := by
    rw [Minifier.shrink, Minifier.standard, Script.minify_bundle hcodes hapart]
    rfl
  rw [Tree.prepared, htexts]
  show (Minifier.standard.shrink .script output texts >>= fun code => pure (texts, code)) = _
  rw [hcode]
  rfl

end Session
end AssetPress
